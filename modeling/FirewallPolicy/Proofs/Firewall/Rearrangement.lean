import FirewallPolicy.Proofs.Firewall.Agreement

/-!
The order of the rules does not matter, nor how often a rule is given, nor what it is called, nor what
is disabled.

What counts of a firewall is its default and the set of its enabled rules with their names left out
(`Firewall.shapes`): `admits_iff_shapes` says the decision on a datagram in these terms. Two firewalls
that have both in common (`Firewall.Rearranged`) are one firewall with its rules put in another order,
repeated, renamed, and with disabled rules put in or taken out.

Proved: `Rearranged.indistinguishable`, neither the formula of the decision, nor a query, nor the
search for inconsistencies can tell two such firewalls apart.
-/

namespace FirewallPolicy

namespace Rule

def unnamed (r : Rule) : Rule := { r with name := "" }

@[simp] theorem unnamed_action (r : Rule) : r.unnamed.action = r.action := rfl

@[simp] theorem unnamed_matches (r : Rule) (d : Datagram) : r.unnamed.Matches d ↔ r.Matches d := Iff.rfl

end Rule

namespace Firewall

def shapes (fw : Firewall) : List Rule := (fw.rules.filter (·.enabled)).map Rule.unnamed

/-- The decision depends on the default and the shapes of the rules. -/
theorem admits_iff_shapes (fw : Firewall) (d : Datagram) :
    fw.Admits d ↔
      (∀ r ∈ fw.shapes, r.action = .block → ¬r.Matches d) ∧
        (fw.blockByDefault = false ∨ ∃ r ∈ fw.shapes, r.action = .allow ∧ r.Matches d) := by
  rw [Admits, shapes, List.forall_mem_map]
  simp [and_assoc]

/-- The firewalls have the same default, and their enabled rules form the same set if names are left
out. -/
structure Rearranged (first second : Firewall) : Prop where
  blockByDefault_eq : first.blockByDefault = second.blockByDefault
  mem_shapes_iff : ∀ r, r ∈ first.shapes ↔ r ∈ second.shapes

instance (first second : Firewall) : Decidable (Rearranged first second) :=
  decidable_of_iff (first.blockByDefault = second.blockByDefault ∧
      first.shapes ⊆ second.shapes ∧ second.shapes ⊆ first.shapes)
    ⟨fun h => ⟨h.1, fun _ => ⟨fun hr => h.2.1 hr, fun hr => h.2.2 hr⟩⟩,
      fun h => ⟨h.1, fun r => (h.2 r).mp, fun r => (h.2 r).mpr⟩⟩

theorem Rearranged.admits_iff {first second : Firewall} (h : Rearranged first second) (d : Datagram) :
    first.Admits d ↔ second.Admits d := by
  rw [admits_iff_shapes, admits_iff_shapes, h.blockByDefault_eq]
  simp only [h.mem_shapes_iff]

/-- A firewall cannot be told from the same one rearranged: their formulas are true of the same
datagrams, a query about a packet whose fields fit is answered alike, and the first call of a search
between them finds that there is nothing to find. A limit of zero would forbid that call, and no
search has a negative one. -/
theorem Rearranged.indistinguishable {first second : Firewall} (h : Rearranged first second) :
    (∃ f g, first.admits = .ok f ∧ second.admits = .ok g ∧
      ∀ d : Datagram, f.eval d.assignment = g.eval d.assignment) ∧
    ∀ solver : Solver, solver.CorrectOnPackets → solver.Decisive →
      (∀ p : Packet, p.Fits → ∃ a b, Query.run solver first p = .ok a ∧
        Query.run solver second p = .ok b ∧ a.allowed = b.allowed) ∧
      ∀ limit : Option Int, (∀ n, limit = some n → 0 < n) →
        ∃ s, Search.start first second limit = .ok s ∧ (s.next solver false).2 = .exhausted ∧
          (s.next solver false).1.exhausted = true :=
  indistinguishable_of_agree h.admits_iff

open Search (names)

/-- The firewall that lets questions to name servers through, written otherwise: the rules in the other
order and under another name, a disabled rule, and the rules once more. -/
def rearrangedNames : Firewall where
  name := "names, rearranged"
  rules := (names.rules.map fun r => { r with name := "question" }).reverse ++
    { name := "off", enabled := false, action := .block } :: names.rules

/-- A question to a name server is let through by both, and one call of a search that may find one
inconsistency shows that there is none. -/
theorem name_questions_however_arranged :
    Rearranged names rearrangedNames ∧ Solver.exact.CorrectOnPackets ∧ Solver.exact.Decisive ∧
      Packet.Fits { destinationPort := some 53, protocol := some 17 } ∧
      (∃ a b, Query.run .exact names { destinationPort := some 53, protocol := some 17 } = .ok a ∧
        Query.run .exact rearrangedNames { destinationPort := some 53, protocol := some 17 } = .ok b ∧
        a.allowed = true ∧ a.allowed = b.allowed) ∧
      ∃ s, Search.start names rearrangedNames (some 1) = .ok s ∧
        (s.next .exact false).2 = .exhausted ∧ (s.next .exact false).1.exhausted = true := by
  have harranged : Rearranged names rearrangedNames := by decide
  have hfits : Packet.Fits { destinationPort := some 53, protocol := some 17 } := by
    constructor <;> simp [UInt16.size]
  obtain ⟨-, hall⟩ := harranged.indistinguishable
  obtain ⟨hquery, hsearch⟩ := hall .exact exact_correct.correctOnPackets exact_decisive
  obtain ⟨a, b, ha, hb, hsame⟩ := hquery _ hfits
  have hallowed : a.allowed = true := by
    have hself := (Packet.covers_datagram_iff _).mpr hfits
    rw [Query.run_eq exact_correct exact_decisive names hself] at ha
    cases ha
    decide
  exact ⟨harranged, exact_correct.correctOnPackets, exact_decisive, hfits, ⟨a, b, ha, hb, hallowed, hsame⟩,
    hsearch (some 1) (by simp)⟩

end Firewall

end FirewallPolicy
