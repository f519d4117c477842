import FirewallPolicy.Firewall.Basic
import FirewallPolicy.Solver.Model

/-!
Reading a solver's model: its packet, its verdicts, its matching rules.

The packet is what the model binds; a field that the model leaves free is open. It is read before
any formula is evaluated, because evaluation binds free variables to zero.
-/

namespace FirewallPolicy.Model

def packet (m : Model) : Except Invalid Packet := do
  let address ← match m.value? Field.sourceAddress.name with
    | none => pure none
    | some n => do
      let a ← Invalid.ofAddress (Address.ofNat n)
      pure (some a)
  return ⟨address, (m.value? Field.sourcePort.name).map Int.ofNat,
    (m.value? Field.destinationPort.name).map Int.ofNat,
    (m.value? Field.protocol.name).map Int.ofNat⟩

/-- Whether the formula holds in the model, and the model completed by it. -/
def holds (m : Model) (f : Formula) : Except Failure (Bool × Model) :=
  if f.hasHole then .error .hole
  else
    let completed := m.complete f
    .ok (f.eval completed.assignment, completed)

def admitted (m : Model) (fw : Firewall) : Except Failure (Bool × Model) := do
  m.holds (← Failure.ofInvalid fw.admits)

def matchingRules (m : Model) : List Rule → Except Failure (List Rule × Model)
  | [] => .ok ([], m)
  | r :: rest =>
    if r.enabled then do
      let (matched, m) ← m.holds (← Failure.ofInvalid r.condition)
      let (more, m) ← m.matchingRules rest
      return (if matched then r :: more else more, m)
    else m.matchingRules rest

end FirewallPolicy.Model
