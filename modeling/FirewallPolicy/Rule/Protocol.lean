import FirewallPolicy.Rule.Range
import FirewallPolicy.Text.Capital

/-!
Network protocols: numbers, names, and the protocol of a rule.

A protocol is known by its number; fifteen numbers have a name, and two names have a second
spelling. A rule's protocol is one number or any; it keeps a number even when it is any.
-/

namespace FirewallPolicy

namespace Protocol

def names : List (Nat × String) :=
  [(0, "HOPOPT"), (1, "ICMP"), (2, "IGMP"), (6, "TCP"), (17, "UDP"), (41, "IPv6"),
    (43, "IPv6-Route"), (44, "IPv6-Frag"), (47, "GRE"), (58, "IPv6-ICMP"), (59, "IPv6-NoNxt"), (60, "IPv6-Opts"),
    (112, "VRRP"), (113, "PGM"), (115, "L2TP")]

def aliases : List (String × Nat) := [("ICMPV4", 1), ("ICMPV6", 58)]

def spellings : List (String × Nat) := names.map (fun p => (p.2.toUpper, p.1)) ++ aliases

/-- The name of a protocol number, or the number in decimal. -/
def nameOf (number : Int) : String :=
  match names.find? fun p => (p.1 : Int) == number with
  | some p => p.2
  | none => toString number

/-- The number of a protocol name, in any case and amid blanks. -/
def numberOf? (name : List Char) : Option Nat :=
  spellings.lookup (String.ofList (Text.capitals (Text.trim name)))

end Protocol

structure Protocol where
  any : Bool
  number : Int
  fits : any = true ∨ (0 ≤ number ∧ number ≤ (Quantity.protocol.maximum : Int))
  deriving DecidableEq, Repr

namespace Protocol

/-- The protocol of the flag and number; only a number that counts is checked. -/
def ofNumber (any : Bool) (number : Int) : Except Invalid Protocol :=
  if h : any = true ∨ (0 ≤ number ∧ number ≤ (Quantity.protocol.maximum : Int)) then
    .ok ⟨any, number, h⟩
  else .error (.worded (.outOfBounds .protocol number))

def wildcard : Protocol := ⟨true, 0, .inl rfl⟩

def read (token : List Char) : Except Invalid Protocol :=
  let text := Text.trim token
  if Text.isAny text then .ok wildcard
  else match numberOf? text with
    | some n => ofNumber false n
    | none =>
      match Text.Numeral.read text with
      | .error _ => .error (.unsupportedProtocol (String.ofList token))
      | .ok n => ofNumber false n

def Matches (p : Protocol) (x : Nat) : Prop := p.any = true ∨ p.number = x

instance (p : Protocol) (x : Nat) : Decidable (p.Matches x) :=
  inferInstanceAs (Decidable (_ ∨ _))

def matching (p : Protocol) (v : Variable) : Except Invalid Formula := do
  v.checkWidth Quantity.protocol.width
  return if p.any then .const true else .equals v p.number

def text (p : Protocol) : String := if p.any then "Any" else nameOf p.number

end Protocol

end FirewallPolicy
