import FirewallPolicy.Proofs.Firewall.Agreement
import FirewallPolicy.Proofs.Query.Exact

/-!
Only the values of a rule count, not how they are cut up.

A rule has three sets of values (`Rule.Criterion`), and it matches a datagram if the sets have the fields
of the datagram and the protocol does too. Rules that are like it but for their names and for one of the
sets, and whose sets have together the values that its own set has, are its pieces (`Rule.Pieces`). Only
values of the field count, so the set of everything may be cut up into ranges. As the other conditions are
shared, some piece matches exactly if the rule does (`Pieces.matches_iff`).

A decision asks of the block rules and of the allow rules only whether an enabled one matches
(`Firewall.Applies`). The pieces are enabled and act as the rule does, so they can take its place.

Proved: `replaceRule_indistinguishable`, neither the formula of the decision, nor a query, nor the search
for inconsistencies can tell a firewall from the same one with a rule replaced by its pieces.
-/

namespace FirewallPolicy

namespace Rule

/-! ## The sets of a rule -/

inductive Criterion where
  | remoteAddresses
  | remotePorts
  | localPorts
  deriving DecidableEq, Repr

namespace Criterion

def quantity : Criterion → Quantity
  | remoteAddresses => .address
  | remotePorts => .port
  | localPorts => .port

def values : (criterion : Criterion) → Rule → ValueSet criterion.quantity
  | remoteAddresses, r => r.remoteAddresses
  | remotePorts, r => r.remotePorts
  | localPorts, r => r.localPorts

def put : (criterion : Criterion) → ValueSet criterion.quantity → Rule → Rule
  | remoteAddresses, s, r => { r with remoteAddresses := s }
  | remotePorts, s, r => { r with remotePorts := s }
  | localPorts, s, r => { r with localPorts := s }

def field : Criterion → Datagram → Nat
  | remoteAddresses, d => d.sourceAddress
  | remotePorts, d => d.sourcePort
  | localPorts, d => d.destinationPort

variable (criterion : Criterion) (r : Rule) (d : Datagram)

theorem put_values : criterion.put (criterion.values r) r = r := by
  cases criterion <;> rfl

@[simp] theorem put_enabled (s : ValueSet criterion.quantity) : (criterion.put s r).enabled = r.enabled := by
  cases criterion <;> rfl

@[simp] theorem put_action (s : ValueSet criterion.quantity) : (criterion.put s r).action = r.action := by
  cases criterion <;> rfl

theorem field_le : criterion.field d ≤ criterion.quantity.maximum := by
  cases criterion with
  | remoteAddresses => exact Nat.le_sub_one_of_lt d.sourceAddress.isLt
  | remotePorts => exact Nat.le_sub_one_of_lt d.sourcePort.isLt
  | localPorts => exact Nat.le_sub_one_of_lt d.destinationPort.isLt

/-- A rule matches if the one set has the field, and the rule matches where that set is everything. -/
theorem matches_put (s : ValueSet criterion.quantity) :
    (criterion.put s r).Matches d ↔ s.Contains (criterion.field d) ∧ (criterion.put .all r).Matches d := by
  have heverything : ∀ {q : Quantity} (x : Nat), (ValueSet.all : ValueSet q).Contains x := by
    intro q x
    exact Or.inl rfl
  unfold Matches
  cases criterion with
  | remoteAddresses =>
    constructor
    · rintro ⟨ha, hrest⟩
      exact ⟨ha, heverything _, hrest⟩
    · rintro ⟨ha, -, hrest⟩
      exact ⟨ha, hrest⟩
  | remotePorts =>
    constructor
    · rintro ⟨ha, hs, hrest⟩
      exact ⟨hs, ha, heverything _, hrest⟩
    · rintro ⟨hs, ha, -, hrest⟩
      exact ⟨ha, hs, hrest⟩
  | localPorts =>
    constructor
    · rintro ⟨ha, hs, hd, hp⟩
      exact ⟨hd, ha, hs, heverything _, hp⟩
    · rintro ⟨hd, ha, hs, -, hp⟩
      exact ⟨ha, hs, hd, hp⟩

end Criterion

/-! ## Pieces -/

/-- The rules are like the one rule but for their names and for one set, and together they have the values
that its set has. -/
structure Pieces (criterion : Criterion) (r : Rule) (pieces : List Rule) : Prop where
  alike : ∀ p ∈ pieces, p = criterion.put (criterion.values p) { r with name := p.name }
  contains_iff : ∀ x ≤ criterion.quantity.maximum,
    (criterion.values r).Contains x ↔ ∃ p ∈ pieces, (criterion.values p).Contains x

namespace Pieces

variable {criterion : Criterion} {r : Rule} {pieces : List Rule}

theorem enabled_eq (h : Pieces criterion r pieces) {p : Rule} (hp : p ∈ pieces) : p.enabled = r.enabled := by
  rw [h.alike p hp, Criterion.put_enabled]

theorem action_eq (h : Pieces criterion r pieces) {p : Rule} (hp : p ∈ pieces) : p.action = r.action := by
  rw [h.alike p hp, Criterion.put_action]

/-- A piece matches if its set has the field, and the rule matches where that set is everything. -/
theorem matches_piece (h : Pieces criterion r pieces) {p : Rule} (hp : p ∈ pieces) (d : Datagram) :
    p.Matches d ↔
      (criterion.values p).Contains (criterion.field d) ∧ (criterion.put .all r).Matches d := by
  have hput := criterion.matches_put { r with name := p.name } d (criterion.values p)
  have hname : (criterion.put .all { r with name := p.name }).Matches d ↔ (criterion.put .all r).Matches d := by
    cases criterion <;> exact Iff.rfl
  rw [← h.alike p hp, hname] at hput
  exact hput

theorem matches_iff (h : Pieces criterion r pieces) (d : Datagram) :
    r.Matches d ↔ ∃ p ∈ pieces, p.Matches d := by
  have hrule := criterion.matches_put r d (criterion.values r)
  rw [criterion.put_values, h.contains_iff _ (criterion.field_le d)] at hrule
  rw [hrule]
  constructor
  · rintro ⟨⟨p, hp, hvalue⟩, hrest⟩
    exact ⟨p, hp, (h.matches_piece hp d).mpr ⟨hvalue, hrest⟩⟩
  · rintro ⟨p, hp, hmatches⟩
    obtain ⟨hvalue, hrest⟩ := (h.matches_piece hp d).mp hmatches
    exact ⟨⟨p, hp, hvalue⟩, hrest⟩

end Pieces

end Rule

namespace Firewall

/-! ## Replacing a rule -/

def Applies (fw : Firewall) (action : Action) (d : Datagram) : Prop :=
  ∃ r ∈ fw.rules, r.enabled = true ∧ r.action = action ∧ r.Matches d

/-- A decision asks of the rules of each action only whether one applies. -/
theorem admits_iff_applies (fw : Firewall) (d : Datagram) :
    fw.Admits d ↔ ¬fw.Applies .block d ∧ (fw.blockByDefault = false ∨ fw.Applies .allow d) := by
  unfold Admits Applies
  simp

def replaceRule (fw : Firewall) (position : Nat) (pieces : List Rule) : Firewall :=
  { fw with rules := fw.rules.take position ++ pieces ++ fw.rules.drop (position + 1) }

variable {fw : Firewall} {position : Nat} {r : Rule}

theorem mem_replaceRule {pieces : List Rule} {b : Rule} :
    b ∈ (fw.replaceRule position pieces).rules ↔
      b ∈ fw.rules.take position ∨ b ∈ pieces ∨ b ∈ fw.rules.drop (position + 1) := by
  unfold replaceRule
  rw [List.mem_append, List.mem_append, or_assoc]

/-- A rule of the firewall is the one at the position, or stands in front of it or behind it. -/
theorem mem_rules_iff (hr : fw.rules[position]? = some r) {b : Rule} :
    b ∈ fw.rules ↔ b ∈ fw.rules.take position ∨ b = r ∨ b ∈ fw.rules.drop (position + 1) := by
  obtain ⟨hlt, hget⟩ := List.getElem?_eq_some_iff.mp hr
  have hcut : fw.rules.take position ++ r :: fw.rules.drop (position + 1) = fw.rules := by
    rw [← hget, List.getElem_cons_drop, List.take_append_drop]
  conv_lhs => rw [← hcut]
  rw [List.mem_append, List.mem_cons]

/-- The pieces of a rule apply where it does. -/
theorem applies_replaceRule (hr : fw.rules[position]? = some r) {criterion : Rule.Criterion}
    {pieces : List Rule} (h : r.Pieces criterion pieces) (action : Action) (d : Datagram) :
    (fw.replaceRule position pieces).Applies action d ↔ fw.Applies action d := by
  constructor
  · rintro ⟨b, hb, henabled, haction, hmatches⟩
    rcases mem_replaceRule.mp hb with hfront | hpiece | hback
    · exact ⟨b, (mem_rules_iff hr).mpr (Or.inl hfront), henabled, haction, hmatches⟩
    · rw [h.enabled_eq hpiece] at henabled
      rw [h.action_eq hpiece] at haction
      have hrule : r.Matches d := (h.matches_iff d).mpr ⟨b, hpiece, hmatches⟩
      exact ⟨r, (mem_rules_iff hr).mpr (Or.inr (Or.inl rfl)), henabled, haction, hrule⟩
    · exact ⟨b, (mem_rules_iff hr).mpr (Or.inr (Or.inr hback)), henabled, haction, hmatches⟩
  · rintro ⟨b, hb, henabled, haction, hmatches⟩
    rcases (mem_rules_iff hr).mp hb with hfront | rfl | hback
    · exact ⟨b, mem_replaceRule.mpr (Or.inl hfront), henabled, haction, hmatches⟩
    · obtain ⟨p, hp, hmatchesPiece⟩ := (h.matches_iff d).mp hmatches
      rw [← h.enabled_eq hp] at henabled
      rw [← h.action_eq hp] at haction
      exact ⟨p, mem_replaceRule.mpr (Or.inr (Or.inl hp)), henabled, haction, hmatchesPiece⟩
    · exact ⟨b, mem_replaceRule.mpr (Or.inr (Or.inr hback)), henabled, haction, hmatches⟩

theorem admits_replaceRule (hr : fw.rules[position]? = some r) {criterion : Rule.Criterion}
    {pieces : List Rule} (h : r.Pieces criterion pieces) (d : Datagram) :
    fw.Admits d ↔ (fw.replaceRule position pieces).Admits d := by
  rw [admits_iff_applies, admits_iff_applies, applies_replaceRule hr h, applies_replaceRule hr h]
  rfl

/-- A firewall cannot be told from the same one with a rule replaced by its pieces: their formulas are
true of the same datagrams, a query about a packet whose fields fit is answered alike, and the first call
of a search between them finds that there is nothing to find. A limit of zero would forbid that call, and
no search has a negative one. -/
theorem replaceRule_indistinguishable (hr : fw.rules[position]? = some r) {criterion : Rule.Criterion}
    {pieces : List Rule} (h : r.Pieces criterion pieces) :
    (∃ f g, fw.admits = .ok f ∧ (fw.replaceRule position pieces).admits = .ok g ∧
      ∀ d : Datagram, f.eval d.assignment = g.eval d.assignment) ∧
    ∀ solver : Solver, solver.CorrectOnPackets → solver.Decisive →
      (∀ p : Packet, p.Fits → ∃ a b, Query.run solver fw p = .ok a ∧
        Query.run solver (fw.replaceRule position pieces) p = .ok b ∧ a.allowed = b.allowed) ∧
      ∀ limit : Option Int, (∀ n, limit = some n → 0 < n) →
        ∃ s, Search.start fw (fw.replaceRule position pieces) limit = .ok s ∧
          (s.next solver false).2 = .exhausted ∧ (s.next solver false).1.exhausted = true :=
  indistinguishable_of_agree (admits_replaceRule hr h)

/-- A rule cut up at remote port 1024: one for the ports below, and one for the ports from there on, which
has some of them twice and a range in the wrong order. -/
def portPieces (r : Rule) : List Rule :=
  [{ r with name := "low ports", remotePorts := .ofRanges [⟨0, 1023, by decide, by decide⟩] },
   { r with
     name := "high ports"
     remotePorts := .ofRanges [⟨9, 3, by decide, by decide⟩, ⟨1024, 65535, by decide, by decide⟩,
       ⟨49152, 65535, by decide, by decide⟩] }]

/-- The rule for web requests is about all remote ports, so it may be cut up. A web request is let through
as before, and one call of a search that may find one inconsistency shows that there is none. -/
theorem web_rule_may_be_cut_up :
    ∃ r, Query.gate.rules[0]? = some r ∧ r.Pieces .remotePorts (portPieces r) ∧
      Solver.exact.CorrectOnPackets ∧ Solver.exact.Decisive ∧
      Packet.Fits { sourcePort := some 1024, destinationPort := some 443 } ∧
      (∃ a b, Query.run .exact Query.gate { sourcePort := some 1024, destinationPort := some 443 } = .ok a ∧
        Query.run .exact (Query.gate.replaceRule 0 (portPieces r))
          { sourcePort := some 1024, destinationPort := some 443 } = .ok b ∧ a.allowed = b.allowed) ∧
      ∃ s, Search.start Query.gate (Query.gate.replaceRule 0 (portPieces r)) (some 1) = .ok s ∧
        (s.next .exact false).2 = .exhausted ∧ (s.next .exact false).1.exhausted = true := by
  obtain ⟨r, hweb, hports⟩ : ∃ r, Query.gate.rules[0]? = some r ∧ r.remotePorts = .all := ⟨_, rfl, rfl⟩
  have hpieces : r.Pieces .remotePorts (portPieces r) := by
    refine ⟨fun p hp => ?_, fun x hx => iff_of_true (Or.inl ?_) ?_⟩
    · rcases List.mem_pair.mp hp with rfl | rfl <;> rfl
    · show r.remotePorts.everything = true
      rw [hports]
      rfl
    have hmax : x ≤ 65535 := hx
    by_cases hlow : x ≤ 1023
    · exact ⟨_, List.mem_cons_self, Or.inr ⟨_, List.mem_cons_self, Nat.zero_le x, hlow⟩⟩
    · refine ⟨_, List.mem_cons_of_mem _ List.mem_cons_self, Or.inr ?_⟩
      refine ⟨⟨1024, 65535, by decide, by decide⟩, ?_, ?_⟩
      · exact List.mem_cons_of_mem _ List.mem_cons_self
      · exact ⟨by show 1024 ≤ x; omega, hmax⟩
  have hfits : Packet.Fits { sourcePort := some 1024, destinationPort := some 443 } := by
    constructor <;> simp [UInt16.size]
  obtain ⟨-, hall⟩ := replaceRule_indistinguishable hweb hpieces
  obtain ⟨hquery, hsearch⟩ := hall .exact exact_correct.correctOnPackets exact_decisive
  exact ⟨r, hweb, hpieces, exact_correct.correctOnPackets, exact_decisive, hfits, hquery _ hfits,
    hsearch (some 1) (by simp)⟩

end Firewall

end FirewallPolicy
