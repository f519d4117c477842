import FirewallPolicy.Proofs.Query.Exact

/-!
What one more rule does to a firewall.

A rule is put in between the rules in front of a position and those behind it (`Firewall.front`,
`Firewall.back`). If it is enabled and matches, it takes the same place among the rules that match
(`matching_insertRule`); if not, these stay as they are (`matching_insertRule_of_not`). The decision
follows from the rules that match and the default, so what the new rule does to the one it does to the
other: a block rule that matches denies, and an allow rule that matches leaves the decision to the block
rules (`admits_insertRule_of_block`, `admits_insertRule_of_allow`).

Proved: `insertRule_is_local`, what a query about a packet answers after a rule was put in, in terms of
what it answered before.
-/

namespace FirewallPolicy.Firewall

variable (fw : Firewall) (position : Int) (r : Rule) (d : Datagram)

def front : Firewall := { fw with rules := fw.rules.take (fw.place position) }

def back : Firewall := { fw with rules := fw.rules.drop (fw.place position) }

@[simp] theorem insertRule_rules :
    (fw.insertRule position r).rules = (fw.front position).rules ++ r :: (fw.back position).rules := rfl

@[simp] theorem insertRule_blockByDefault :
    (fw.insertRule position r).blockByDefault = fw.blockByDefault := rfl

/-! ## The rules that match -/

theorem matching_eq_front_append_back :
    fw.matching d = (fw.front position).matching d ++ (fw.back position).matching d := by
  simp only [matching, front, back, ← List.filter_append, List.take_append_drop]

variable {r d}

theorem matching_insertRule (he : r.enabled = true) (hm : r.Matches d) :
    (fw.insertRule position r).matching d =
      (fw.front position).matching d ++ r :: (fw.back position).matching d := by
  simp [matching, List.filter_append, he, hm]

theorem matching_insertRule_of_not (h : ¬(r.enabled = true ∧ r.Matches d)) :
    (fw.insertRule position r).matching d = fw.matching d := by
  have hskipped : (r.enabled && decide (r.Matches d)) = false := by simpa using h
  rw [fw.matching_eq_front_append_back position d]
  simp [matching, List.filter_append, hskipped]

theorem mem_matching_insertRule (he : r.enabled = true) (hm : r.Matches d) {b : Rule} :
    b ∈ (fw.insertRule position r).matching d ↔ b = r ∨ b ∈ fw.matching d := by
  rw [fw.matching_insertRule position he hm, fw.matching_eq_front_append_back position d]
  simp only [List.mem_append, List.mem_cons]
  exact or_left_comm

/-! ## The decision -/

theorem admits_insertRule_of_not (h : ¬(r.enabled = true ∧ r.Matches d)) :
    (fw.insertRule position r).Admits d ↔ fw.Admits d := by
  rw [admits_iff_matching, admits_iff_matching, fw.matching_insertRule_of_not position h,
    insertRule_blockByDefault]

theorem admits_insertRule_of_block (he : r.enabled = true) (hm : r.Matches d)
    (hblock : r.action = .block) : ¬(fw.insertRule position r).Admits d := by
  intro hadmits
  have hnone := ((admits_iff_matching _ d).mp hadmits).1
  exact hnone r ((fw.mem_matching_insertRule position he hm).mpr (Or.inl rfl)) hblock

theorem admits_insertRule_of_allow (he : r.enabled = true) (hm : r.Matches d)
    (hallow : r.action = .allow) :
    (fw.insertRule position r).Admits d ↔ ∀ b ∈ fw.matching d, b.action ≠ .block := by
  rw [admits_iff_matching]
  simp only [fw.mem_matching_insertRule position he hm]
  constructor
  · intro h b hb
    exact h.1 b (Or.inr hb)
  · intro h
    refine ⟨?_, Or.inr ⟨r, Or.inl rfl, hallow⟩⟩
    rintro b (rfl | hb)
    · simp [hallow]
    · exact h b hb

/-- An allow rule denies nothing that was let through. -/
theorem Admits.insertRule (h : fw.Admits d) (hallow : r.action = .allow) :
    (fw.insertRule position r).Admits d := by
  by_cases happlies : r.enabled = true ∧ r.Matches d
  · rw [fw.admits_insertRule_of_allow position happlies.1 happlies.2 hallow]
    exact ((fw.admits_iff_matching d).mp h).1
  · exact (fw.admits_insertRule_of_not position happlies).mpr h

/-- A block rule lets nothing through that was denied. -/
theorem admits_of_insertRule (h : (fw.insertRule position r).Admits d) (hblock : r.action = .block) :
    fw.Admits d := by
  by_cases happlies : r.enabled = true ∧ r.Matches d
  · exact absurd h (fw.admits_insertRule_of_block position happlies.1 happlies.2 hblock)
  · exact (fw.admits_insertRule_of_not position happlies).mp h

/-- Where everything is allowed by default, an allow rule makes no difference. -/
theorem admits_insertRule_of_default (hdefault : fw.blockByDefault = false) (hallow : r.action = .allow) :
    (fw.insertRule position r).Admits d ↔ fw.Admits d := by
  by_cases happlies : r.enabled = true ∧ r.Matches d
  · rw [fw.admits_insertRule_of_allow position happlies.1 happlies.2 hallow, admits_iff_matching]
    simp [hdefault]
  · exact fw.admits_insertRule_of_not position happlies

/-! ## Queries -/

/-- A query about a packet whose fields fit, before and after a rule was put in. A rule that is disabled
or does not match changes nothing. A rule that is enabled and matches stands once among the rules that
match, behind those that were in front of its position; the packet is then denied if the rule blocks,
and if it allows, the packet is let through exactly if no enabled block rule matches. So an allow rule
never denies, a block rule never lets through, and an allow rule does nothing where everything is
allowed by default. -/
theorem insertRule_is_local {solver : Solver} (hsolver : solver.Correct) (hdecisive : solver.Decisive)
    (fw : Firewall) (position : Int) (r : Rule) {p : Packet} (hp : p.Fits) :
    ∃ old new : Query.Result, Query.run solver fw p = .ok old ∧
      Query.run solver (fw.insertRule position r) p = .ok new ∧
      (¬(r.enabled = true ∧ r.Matches p.datagram) → new = old) ∧
      (r.enabled = true → r.Matches p.datagram →
        old.rules = (fw.front position).matching p.datagram ++ (fw.back position).matching p.datagram ∧
        new.rules =
          (fw.front position).matching p.datagram ++ r :: (fw.back position).matching p.datagram ∧
        (r.action = .block → new.allowed = false) ∧
        (r.action = .allow → (new.allowed = true ↔
          ∀ b ∈ fw.rules, b.enabled = true → b.action = .block → ¬b.Matches p.datagram))) ∧
      (r.action = .allow → old.allowed = true → new.allowed = true) ∧
      (r.action = .block → new.allowed = true → old.allowed = true) ∧
      (fw.blockByDefault = false → r.action = .allow → new.allowed = old.allowed) := by
  have hself := p.covers_datagram_iff.mpr hp
  refine ⟨_, _, Query.run_eq hsolver hdecisive fw hself,
    Query.run_eq hsolver hdecisive (fw.insertRule position r) hself, ?_, ?_, ?_, ?_, ?_⟩
  · intro hnot
    rw [fw.matching_insertRule_of_not position hnot,
      decide_eq_decide.mpr (fw.admits_insertRule_of_not position hnot)]
  · intro he hm
    refine ⟨fw.matching_eq_front_append_back position p.datagram,
      fw.matching_insertRule position he hm, fun hblock => ?_, fun hallow => ?_⟩
    · exact decide_eq_false (fw.admits_insertRule_of_block position he hm hblock)
    · rw [decide_eq_true_iff, fw.admits_insertRule_of_allow position he hm hallow]
      exact fw.forall_matching_iff p.datagram
  · simp only [decide_eq_true_iff]
    exact fun hallow h => h.insertRule fw position hallow
  · simp only [decide_eq_true_iff]
    exact fun hblock h => fw.admits_of_insertRule position h hblock
  · intro hdefault hallow
    exact decide_eq_decide.mpr (fw.admits_insertRule_of_default position hdefault hallow)

/-- An allow rule for everything, put in before the last rule, stands between the two rules that match a
web request from the blocked network, and the request is denied as before. -/
theorem an_allow_rule_does_not_unblock :
    Solver.exact.Correct ∧ Solver.exact.Decisive ∧
      Packet.Fits { sourceAddress := some ⟨167772161, by decide⟩, destinationPort := some 443 } ∧
      ∃ old new : Query.Result,
        Query.run .exact Query.gate
          { sourceAddress := some ⟨167772161, by decide⟩, destinationPort := some 443 } = .ok old ∧
        Query.run .exact (Query.gate.insertRule (-1) { name := "all" })
          { sourceAddress := some ⟨167772161, by decide⟩, destinationPort := some 443 } = .ok new ∧
        old.rules.map (·.name) = ["web", "network"] ∧
        new.rules.map (·.name) = ["web", "all", "network"] ∧ new.allowed = false := by
  have hfits : Packet.Fits { sourceAddress := some ⟨167772161, by decide⟩, destinationPort := some 443 } := by
    constructor <;> simp [UInt16.size]
  obtain ⟨old, new, hold, hnew, -, heffect, -⟩ :=
    insertRule_is_local exact_correct exact_decisive Query.gate (-1) { name := "all" } hfits
  obtain ⟨holdRules, hnewRules, -, hallow⟩ := heffect rfl (by decide)
  refine ⟨exact_correct, exact_decisive, hfits, old, new, hold, hnew, ?_, ?_, ?_⟩
  · rw [holdRules]
    decide +kernel
  · rw [hnewRules]
    decide +kernel
  · rw [Bool.eq_false_iff, ne_eq, hallow rfl]
    decide +kernel

end FirewallPolicy.Firewall
