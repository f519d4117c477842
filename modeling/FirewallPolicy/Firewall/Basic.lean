import FirewallPolicy.Failure
import FirewallPolicy.Rule.Basic

/-!
Firewalls and their decisions.

A firewall is a default and a list of rules. An enabled block rule that matches wins over every
allow rule; if the firewall blocks by default, an enabled allow rule has to match. Disabled rules
count for nothing. `Firewall.admits` is the formula of that decision, `Firewall.Admits` the decision
on one datagram, and `Firewall.matching` the rules that a report names.

A rule is inserted at a position; a negative one counts from the end.
-/

namespace FirewallPolicy

structure Firewall where
  name : String := ""
  blockByDefault : Bool := true
  rules : List Rule := []
  warnings : List String := []
  deriving DecidableEq, Repr

namespace Firewall

def enabledRules (fw : Firewall) (action : Action) : List Rule :=
  fw.rules.filter fun r => r.enabled && r.action == action

def anyOf (rules : List Rule) : Except Invalid Formula := do
  let conditions ← rules.mapM (·.condition)
  return .disjunction conditions

def admits (fw : Firewall) : Except Invalid Formula := do
  let blocked ← anyOf (fw.enabledRules .block)
  if !fw.blockByDefault then return .not blocked
  let allowed ← anyOf (fw.enabledRules .allow)
  return .conjunction [allowed, .not blocked]

/-! ## Decisions on datagrams -/

def Admits (fw : Firewall) (d : Datagram) : Prop :=
  (∀ r ∈ fw.rules, r.enabled = true → r.action = .block → ¬r.Matches d) ∧
    (fw.blockByDefault = false ∨
      ∃ r ∈ fw.rules, r.enabled = true ∧ r.action = .allow ∧ r.Matches d)

instance (fw : Firewall) (d : Datagram) : Decidable (fw.Admits d) :=
  inferInstanceAs (Decidable (_ ∧ _))

def matching (fw : Firewall) (d : Datagram) : List Rule :=
  fw.rules.filter fun r => r.enabled && decide (r.Matches d)

/-! ## Insertion -/

/-- The place that a position stands for: from the end if negative, and never past either end. -/
def place (fw : Firewall) (position : Int) : Nat :=
  let n : Int := fw.rules.length
  (min n (max 0 (if position < 0 then n + position else position))).toNat

def insertRule (fw : Firewall) (position : Int) (r : Rule) : Firewall :=
  { fw with rules := fw.rules.take (fw.place position) ++ r :: fw.rules.drop (fw.place position) }

end Firewall

end FirewallPolicy
