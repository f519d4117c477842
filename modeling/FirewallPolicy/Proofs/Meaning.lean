import Mathlib.Data.List.Forall2
import FirewallPolicy.Firewall.Basic

/-!
What the formulas of rules, firewalls and packets mean.

A formula means a property of datagrams (`Formula.Means`) if no hole occurs in it, its variables are
fields of a packet, and it is true of exactly the datagrams with the property. Conjunction,
disjunction and negation mean what they say, so the meaning of a firewall's formula is put together
from the meanings of its ranges.

Each builder is shown never to refuse, and its formula to mean the relation on datagrams that stands
beside it:
- `Range.contains_means`, `ValueSet.contains_means`, `Protocol.matching_means`;
- `Rule.condition_means`: the formula of a rule means `Rule.Matches`;
- `Firewall.admits_means`: the formula of a firewall means `Firewall.Admits`;
- `Packet.pattern_means`: the formula of a packet that stands for some datagram means
  `Packet.Covers`.
-/

namespace FirewallPolicy

@[simp] theorem ok_bind {ε α β : Type} (a : α) (f : α → Except ε β) : (Except.ok a >>= f) = f a := rfl

@[simp] theorem pure_eq_ok {ε α : Type} (a : α) : (pure a : Except ε α) = .ok a := rfl

theorem exists_of_bind_eq_ok {ε α β : Type} {x : Except ε α} {f : α → Except ε β} {b : β}
    (h : (x >>= f) = .ok b) : ∃ a, x = .ok a ∧ f a = .ok b := by
  cases x with
  | error e => cases h
  | ok a => exact ⟨a, rfl, h⟩

theorem mapM_eq_ok_iff {ε α β : Type} {f : α → Except ε β} {xs : List α} {ys : List β} :
    xs.mapM f = .ok ys ↔ List.Forall₂ (fun x y => f x = .ok y) xs ys := by
  induction xs generalizing ys with
  | nil =>
    constructor
    · intro h
      cases h
      exact .nil
    · intro h
      cases h
      rfl
  | cons x xs ih =>
    rw [List.mapM_cons]
    constructor
    · intro h
      obtain ⟨y, hy, h⟩ := exists_of_bind_eq_ok h
      obtain ⟨more, hmore, h⟩ := exists_of_bind_eq_ok h
      cases h
      exact .cons hy (ih.mp hmore)
    · intro h
      cases h with
      | cons hy hmore =>
        rw [hy, ih.mpr hmore]
        rfl

/-! ## The fields of a packet -/

namespace Field

def all : List Variable := [sourceAddress, sourcePort, destinationPort, protocol]

theorem sourcePort_ne_sourceAddress : sourcePort ≠ sourceAddress := by decide
theorem destinationPort_ne_sourceAddress : destinationPort ≠ sourceAddress := by decide
theorem destinationPort_ne_sourcePort : destinationPort ≠ sourcePort := by decide
theorem protocol_ne_sourceAddress : protocol ≠ sourceAddress := by decide
theorem protocol_ne_sourcePort : protocol ≠ sourcePort := by decide
theorem protocol_ne_destinationPort : protocol ≠ destinationPort := by decide

end Field

namespace Datagram

variable (d : Datagram)

@[simp] theorem assignment_sourceAddress : d.assignment Field.sourceAddress = d.sourceAddress := by
  simp [assignment]

@[simp] theorem assignment_sourcePort : d.assignment Field.sourcePort = d.sourcePort := by
  simp [assignment, Field.sourcePort_ne_sourceAddress]

@[simp] theorem assignment_destinationPort :
    d.assignment Field.destinationPort = d.destinationPort := by
  simp [assignment, Field.destinationPort_ne_sourceAddress, Field.destinationPort_ne_sourcePort]

@[simp] theorem assignment_protocol : d.assignment Field.protocol = d.protocol := by
  simp [assignment, Field.protocol_ne_sourceAddress, Field.protocol_ne_sourcePort,
    Field.protocol_ne_destinationPort]

theorem assignment_inWidth : d.assignment.InWidth := by
  intro v
  unfold assignment
  split
  · rename_i h; subst h; exact d.sourceAddress.isLt
  split
  · rename_i h; subst h; exact d.sourcePort.isLt
  split
  · rename_i h; subst h; exact d.destinationPort.isLt
  split
  · rename_i h; subst h; exact d.protocol.isLt
  · exact v.modulus_pos

end Datagram

/-! ## Meaning -/

namespace Formula

/-- The formula is about packets, and true of exactly the datagrams with the property. -/
structure Means (f : Formula) (P : Datagram → Prop) : Prop where
  hasHole_eq : f.hasHole = false
  mem_all : ∀ v ∈ f.fields, v ∈ Field.all
  holds_iff : ∀ d : Datagram, f.eval d.assignment = true ↔ P d

/-- Formulas of a list that mean, one by one, the properties of another list. -/
abbrev MeanEach (fs : List Formula) (Ps : List (Datagram → Prop)) : Prop := List.Forall₂ Means fs Ps

@[simp] theorem hasHole_conjunction (fs : List Formula) : (conjunction fs).hasHole = anyHole fs := by
  cases fs <;> simp [conjunction, hasHole, anyHole]

@[simp] theorem hasHole_disjunction (fs : List Formula) : (disjunction fs).hasHole = anyHole fs := by
  cases fs <;> simp [disjunction, hasHole, anyHole]

@[simp] theorem fields_conjunction (fs : List Formula) : (conjunction fs).fields = fieldsOfAll fs := by
  cases fs <;> simp [conjunction, fields, fieldsOfAll]

@[simp] theorem fields_disjunction (fs : List Formula) : (disjunction fs).fields = fieldsOfAll fs := by
  cases fs <;> simp [disjunction, fields, fieldsOfAll]

theorem MeanEach.anyHole_eq {fs : List Formula} {Ps : List (Datagram → Prop)} (h : MeanEach fs Ps) :
    anyHole fs = false := by
  induction h with
  | nil => rfl
  | cons hf _ ih => simp [anyHole, hf.hasHole_eq, ih]

theorem MeanEach.mem_all {fs : List Formula} {Ps : List (Datagram → Prop)} (h : MeanEach fs Ps) :
    ∀ v ∈ fieldsOfAll fs, v ∈ Field.all := by
  induction h with
  | nil => simp [fieldsOfAll]
  | cons hf _ ih =>
    intro v hv
    rcases List.mem_append.mp hv with hv | hv
    · exact hf.mem_all v hv
    · exact ih v hv

theorem Means.conjunction {fs : List Formula} {Ps : List (Datagram → Prop)} (h : MeanEach fs Ps) :
    (conjunction fs).Means fun d => ∀ P ∈ Ps, P d := by
  refine ⟨by simpa using h.anyHole_eq, by simpa using h.mem_all, fun d => ?_⟩
  rw [eval_conjunction]
  induction h with
  | nil => simp
  | cons hf _ ih => simp [hf.holds_iff d, ih]

theorem Means.disjunction {fs : List Formula} {Ps : List (Datagram → Prop)} (h : MeanEach fs Ps) :
    (disjunction fs).Means fun d => ∃ P ∈ Ps, P d := by
  refine ⟨by simpa using h.anyHole_eq, by simpa using h.mem_all, fun d => ?_⟩
  rw [eval_disjunction]
  induction h with
  | nil => simp
  | cons hf _ ih => simp [hf.holds_iff d, ih]

theorem Means.not {f : Formula} {P : Datagram → Prop} (h : f.Means P) : f.not.Means fun d => ¬P d := by
  refine ⟨by simpa [hasHole] using h.hasHole_eq, by simpa [fields] using h.mem_all, fun d => ?_⟩
  rw [← h.holds_iff d, eval_not]
  simp

theorem Means.const (b : Bool) : (const b).Means fun _ => b = true :=
  ⟨by simp [hasHole], by simp [fields], by simp⟩

theorem Means.iff {f g : Formula} {P Q : Datagram → Prop} (hf : f.Means P) (hg : g.Means Q) :
    (iff f g).Means fun d => P d ↔ Q d := by
  refine ⟨?_, ?_, fun d => ?_⟩
  · simp [Formula.iff, hasHole, anyHole, hf.hasHole_eq, hg.hasHole_eq]
  · intro v hv
    simp only [Formula.iff, fields, fieldsOfAll, List.append_nil, List.mem_append] at hv
    rcases hv with (hv | hv) | (hv | hv)
    · exact hf.mem_all v hv
    · exact hg.mem_all v hv
    · exact hf.mem_all v hv
    · exact hg.mem_all v hv
  · rw [← hf.holds_iff d, ← hg.holds_iff d, eval_iff, beq_iff_eq]
    exact Bool.eq_iff_iff

theorem Means.congr {f : Formula} {P Q : Datagram → Prop} (h : f.Means P) (hPQ : ∀ d, P d ↔ Q d) :
    f.Means Q :=
  ⟨h.hasHole_eq, h.mem_all, fun d => (h.holds_iff d).trans (hPQ d)⟩

/-- Builders that give formulas with a meaning for all elements do so for the list of them. -/
theorem mapM_means {α : Type} {build : α → Except Invalid Formula} {P : α → Datagram → Prop}
    {xs : List α} (h : ∀ x ∈ xs, ∃ f, build x = .ok f ∧ f.Means (P x)) :
    ∃ fs, xs.mapM build = .ok fs ∧ MeanEach fs (xs.map P) := by
  induction xs with
  | nil => exact ⟨[], rfl, .nil⟩
  | cons x xs ih =>
    obtain ⟨f, hf, hmean⟩ := h x (by simp)
    obtain ⟨fs, hfs, hmeans⟩ := ih fun y hy => h y (by simp [hy])
    refine ⟨f :: fs, ?_, .cons hmean hmeans⟩
    simp [List.mapM_cons, hf, hfs]

end Formula

/-! ## Ranges, sets and protocols -/

theorem Quantity.lt_modulus {q : Quantity} {v : Variable} (hv : v.width = q.width) {n : Nat}
    (hn : n ≤ q.maximum) : n < v.modulus := by
  have hmodulus : v.modulus = Nat.pow 2 q.width := by rw [Variable.modulus, hv, Int.toNat_natCast]
  have hpos := v.modulus_pos
  unfold Quantity.maximum at hn
  omega

section Conditions

variable {v : Variable}

theorem Range.contains_means {q : Quantity} (r : Range q) (hv : v ∈ Field.all) (hw : v.width = q.width) :
    ∃ f, r.contains v = .ok f ∧ f.Means fun d => r.Contains (d.assignment v) := by
  refine ⟨.inRange v r.low r.high, ?_, by simp [Formula.hasHole], by simpa [Formula.fields] using hv, ?_⟩
  · simp [Range.contains, Variable.checkWidth, hw]
  · intro d
    have hlow := v.residue_natCast (Quantity.lt_modulus hw r.low_le)
    have hhigh := v.residue_natCast (Quantity.lt_modulus hw r.high_le)
    simp [Formula.eval, hlow, hhigh, Range.Contains]

theorem ValueSet.contains_means {q : Quantity} (s : ValueSet q) (hv : v ∈ Field.all)
    (hw : v.width = q.width) :
    ∃ f, s.contains v = .ok f ∧ f.Means fun d => s.Contains (d.assignment v) := by
  unfold ValueSet.contains
  cases he : s.everything with
  | true => exact ⟨_, rfl, (Formula.Means.const true).congr fun d => by simp [ValueSet.Contains, he]⟩
  | false =>
    obtain ⟨fs, hfs, hmeans⟩ := Formula.mapM_means fun r (_ : r ∈ s.ranges) => r.contains_means hv hw
    refine ⟨.disjunction fs, ?_, (Formula.Means.disjunction hmeans).congr fun d => ?_⟩
    · simp [hfs]
    · simp [ValueSet.Contains, he]

theorem Formula.Means.equals (hv : v ∈ Field.all) {n : Nat} (hn : n < v.modulus) :
    (Formula.equals v n).Means fun d => d.assignment v = n := by
  refine ⟨by simp [Formula.hasHole], by simpa [Formula.fields] using hv, fun d => ?_⟩
  simp [Formula.eval, v.residue_natCast hn]

theorem Protocol.matching_means (p : Protocol) (hv : v ∈ Field.all)
    (hw : v.width = Quantity.protocol.width) :
    ∃ f, p.matching v = .ok f ∧ f.Means fun d => p.Matches (d.assignment v) := by
  refine ⟨if p.any then .const true else .equals v p.number, ?_, ?_⟩
  · simp [Protocol.matching, Variable.checkWidth, hw]
  · cases ha : p.any with
    | true => exact (Formula.Means.const true).congr fun d => by simp [Protocol.Matches, ha]
    | false =>
      have hfits := p.fits.resolve_left (by simp [ha])
      obtain ⟨n, hn⟩ := Int.eq_ofNat_of_zero_le hfits.1
      rw [hn] at hfits
      have hlt : n < v.modulus := Quantity.lt_modulus hw (by omega)
      simp only [hn, Bool.false_eq_true, if_false]
      refine (Formula.Means.equals hv hlt).congr fun d => ?_
      simp only [Protocol.Matches, ha, hn, Bool.false_eq_true, false_or]
      omega

end Conditions

/-! ## Rules and firewalls -/

theorem Rule.condition_means (r : Rule) : ∃ f, r.condition = .ok f ∧ f.Means r.Matches := by
  obtain ⟨address, ha, hma⟩ := r.remoteAddresses.contains_means (v := Field.sourceAddress) (by decide) rfl
  obtain ⟨sourcePort, hs, hms⟩ := r.remotePorts.contains_means (v := Field.sourcePort) (by decide) rfl
  obtain ⟨destinationPort, hd, hmd⟩ :=
    r.localPorts.contains_means (v := Field.destinationPort) (by decide) rfl
  obtain ⟨protocol, hp, hmp⟩ := r.protocol.matching_means (v := Field.protocol) (by decide) rfl
  refine ⟨.conjunction [address, sourcePort, destinationPort, protocol], ?_, ?_⟩
  · simp [Rule.condition, ha, hs, hd, hp]
  · have hall := Formula.Means.conjunction (.cons hma (.cons hms (.cons hmd (.cons hmp .nil))))
    exact hall.congr fun d => by simp [Rule.Matches]

namespace Firewall

theorem anyOf_means (rules : List Rule) :
    ∃ f, anyOf rules = .ok f ∧ f.Means fun d => ∃ r ∈ rules, r.Matches d := by
  obtain ⟨fs, hfs, hmeans⟩ := Formula.mapM_means fun r (_ : r ∈ rules) => r.condition_means
  refine ⟨.disjunction fs, ?_, (Formula.Means.disjunction hmeans).congr fun d => by simp⟩
  simp [anyOf, hfs]

theorem mem_enabledRules {fw : Firewall} {action : Action} {r : Rule} :
    r ∈ fw.enabledRules action ↔ r ∈ fw.rules ∧ r.enabled = true ∧ r.action = action := by
  simp [enabledRules]

/-- The formula of a firewall can always be built, and is true of what the firewall lets through. -/
theorem admits_means (fw : Firewall) : ∃ f, fw.admits = .ok f ∧ f.Means fw.Admits := by
  obtain ⟨blocked, hb, hmb⟩ := anyOf_means (fw.enabledRules .block)
  obtain ⟨allowed, ha, hma⟩ := anyOf_means (fw.enabledRules .allow)
  have hnone : ∀ d, (¬∃ r ∈ fw.enabledRules .block, r.Matches d) ↔
      ∀ r ∈ fw.rules, r.enabled = true → r.action = .block → ¬r.Matches d := by
    intro d
    simp [mem_enabledRules]
  cases hdef : fw.blockByDefault with
  | false =>
    refine ⟨.not blocked, ?_, hmb.not.congr fun d => ?_⟩
    · simp [admits, hb, hdef]
    · rw [hnone d]
      simp [Admits, hdef]
  | true =>
    refine ⟨.conjunction [allowed, .not blocked], ?_, ?_⟩
    · simp [admits, hb, ha, hdef]
    · refine (Formula.Means.conjunction (.cons hma (.cons hmb.not .nil))).congr fun d => ?_
      simp only [List.forall_mem_cons, List.not_mem_nil, false_implies, implies_true, and_true]
      rw [hnone d, and_comm]
      simp [Admits, hdef, mem_enabledRules, and_assoc]

end Firewall

/-! ## Packets -/

namespace Packet

theorem forall_mem_present {p : Packet} {Q : Variable × Int → Prop} :
    (∀ f ∈ p.present, Q f) ↔
      (∀ a, p.sourceAddress = some a → Q (Field.sourceAddress, a.value)) ∧
      (∀ n, p.sourcePort = some n → Q (Field.sourcePort, n)) ∧
      (∀ n, p.destinationPort = some n → Q (Field.destinationPort, n)) ∧
      (∀ n, p.protocol = some n → Q (Field.protocol, n)) := by
  unfold present
  rw [List.forall_mem_filterMap]
  simp [Option.map_eq_some_iff]

theorem mem_all_of_mem_present {p : Packet} : ∀ f ∈ p.present, f.1 ∈ Field.all :=
  forall_mem_present.mpr (by simp [Field.all])

theorem covers_iff (p : Packet) (d : Datagram) :
    p.Covers d ↔ ∀ f ∈ p.present, f.2 = d.assignment f.1 := by
  rw [forall_mem_present]
  simp only [Covers, Datagram.assignment_sourceAddress, Int.ofNat_inj, Datagram.assignment_sourcePort,
    Datagram.assignment_destinationPort, Datagram.assignment_protocol]

theorem pinned_means {v : Variable} (hv : v ∈ Field.all) {n : Nat} (hn : n < v.modulus) :
    ∃ f, pinned v n = .ok f ∧ f.Means fun d => (n : Int) = d.assignment v := by
  have hwidth : ¬v.width < 0 := by
    revert v
    simp [Field.all, Field.sourceAddress, Field.sourcePort, Field.destinationPort, Field.protocol]
  have hneg : ¬(n : Int) < 0 := by omega
  have hle : n ≤ v.modulus - 1 := by omega
  refine ⟨.equals v n, ?_, (Formula.Means.equals hv hn).congr fun d => by omega⟩
  simp [pinned, Variable.checkValue, Variable.maxValue, hneg, hwidth, hle]

/-- The pattern of a packet that stands for some datagram can be built, and is true of the
datagrams that the packet stands for. -/
theorem pattern_means {p : Packet} {d : Datagram} (h : p.Covers d) :
    ∃ f, p.pattern = .ok f ∧ f.Means p.Covers := by
  have hparts : ∀ x ∈ p.present,
      ∃ f, pinned x.1 x.2 = .ok f ∧ f.Means fun d => x.2 = d.assignment x.1 := by
    intro x hx
    rw [(covers_iff p d).mp h x hx]
    exact pinned_means (mem_all_of_mem_present x hx) (d.assignment_inWidth x.1)
  obtain ⟨fs, hfs, hmeans⟩ := Formula.mapM_means hparts
  refine ⟨.conjunction fs, ?_, (Formula.Means.conjunction hmeans).congr fun d => ?_⟩
  · simp [pattern, hfs]
  · rw [List.forall_mem_map, covers_iff]

end Packet

end FirewallPolicy
