import FirewallPolicy.Invalid

/-!
Why a rule dump, or one of its records, cannot be read.
-/

namespace FirewallPolicy.Dump

inductive Fault where
  /-- The first line is missing or blank. -/
  | missingHeader
  | missingColumns (names : List String)
  | shortRecord (needed found : Nat)
  | badCell (cause : Invalid)
  deriving DecidableEq, Repr

def Fault.message : Fault → String
  | missingHeader => "Missing header line"
  | missingColumns names => "Failed to find required headers: " ++ ", ".intercalate names
  | shortRecord needed found => s!"Expected at least {needed} columns, found {found}"
  | badCell cause => cause.message

end FirewallPolicy.Dump
