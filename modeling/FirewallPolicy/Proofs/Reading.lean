import FirewallPolicy.Proofs.Meaning
import FirewallPolicy.Proofs.Solver.Decision
import FirewallPolicy.Solver.View

/-!
What is read off a model.

A model of the packet fields (`Model.OfPackets`) binds a variable that is called like a field only
if it is the field, and to a value that fits. Such a model stands for one datagram, the one of its
assignment, in which every free field is zero; completing the model does not change it. All that is
read off the model is about this datagram:
- `packet_eq`: the packet of the model stands for the datagrams that have the fields bound, and it
  is the datagram of the model that has zero for the open ones;
- `admitted_eq`: the verdict of a firewall is its decision on that datagram;
- `matchingRules_eq`: the rules are those that match the datagram, in their order.

A solver that answers with such models is one of packets (`Solver.FitsPackets`). It is sound on packets
(`Solver.SoundOnPackets`) if its models make the question true; then what the question means is true of
the whole class of datagrams that have the fields bound (`of_bound`). It is correct on packets
(`Solver.CorrectOnPackets`) if also what it denies is true of no datagram.
-/

namespace FirewallPolicy

namespace Field

theorem eq_of_name_eq : ∀ u ∈ all, ∀ v ∈ all, u.name = v.name → u = v := by decide

theorem name_nonempty : ∀ u ∈ all, u.name.isEmpty = false := by decide

end Field

/-! ## Assignments and datagrams -/

namespace Assignment

def datagram (σ : Assignment) : Datagram :=
  .ofNats (σ Field.sourceAddress) (σ Field.sourcePort) (σ Field.destinationPort) (σ Field.protocol)

def FitsFields (σ : Assignment) : Prop := ∀ u ∈ Field.all, σ u < u.modulus

theorem assignment_datagram {σ : Assignment} (h : σ.FitsFields) :
    ∀ u ∈ Field.all, σ.datagram.assignment u = σ u := by
  simp only [FitsFields, Field.all, List.forall_mem_cons] at h ⊢
  obtain ⟨ha, hs, hd, hp, -⟩ := h
  refine ⟨?_, ?_, ?_, ?_, by simp⟩
  · simpa [datagram, Datagram.ofNats] using show σ Field.sourceAddress < UInt32.size from ha
  · simpa [datagram, Datagram.ofNats] using show σ Field.sourcePort < UInt16.size from hs
  · simpa [datagram, Datagram.ofNats] using show σ Field.destinationPort < UInt16.size from hd
  · simpa [datagram, Datagram.ofNats] using show σ Field.protocol < UInt8.size from hp

end Assignment

theorem Formula.Means.eval_eq {f : Formula} {P : Datagram → Prop} [DecidablePred P] (h : f.Means P)
    {σ : Assignment} (hσ : σ.FitsFields) : f.eval σ = decide (P σ.datagram) := by
  have hcongr : f.eval σ = f.eval σ.datagram.assignment :=
    Formula.eval_congr f fun v hv => (Assignment.assignment_datagram hσ v (h.mem_all v hv)).symm
  rw [hcongr, Bool.eq_iff_iff, h.holds_iff, decide_eq_true_iff]

/-! ## Models of packets -/

namespace Model

/-- Whatever is bound under the name of a packet's field is that field, with a value that fits. -/
def OfPackets (m : Model) : Prop :=
  ∀ b ∈ m.bindings, ∀ u ∈ Field.all, b.1.name = u.name → b.1 = u ∧ b.2 < u.modulus

/-- A model that forces a formula about packets is one of packets. -/
theorem Forces.ofPackets {m : Model} {f : Formula} {P : Datagram → Prop} (h : m.Forces f)
    (hf : f.Means P) : m.OfPackets := by
  intro b hb u hu hname
  have hmem := hf.mem_all b.1 (h.mem_fields b hb)
  have heq : b.1 = u := Field.eq_of_name_eq b.1 hmem u hu hname
  exact ⟨heq, heq ▸ h.inWidth b hb⟩

/-- A variable is found by its name if no other variable that is bound has the name. -/
theorem value?_of_unique {m : Model} {u : Variable} (hname : u.name.isEmpty = false)
    (h : ∀ b ∈ m.bindings, b.1.name = u.name → b.1 = u) : m.value? u.name = m.get? u := by
  obtain ⟨bindings⟩ := m
  simp only [value?, get?, hname, Bool.false_eq_true, if_false]
  induction bindings with
  | nil => rfl
  | cons b bs ih =>
    obtain ⟨v, x⟩ := b
    have hbs := ih fun c hc => h c (List.mem_cons_of_mem _ hc)
    by_cases e : v = u
    · subst e
      simp
    · have hother : (v.name == u.name) = false := by
        simpa using fun hn => e (h (v, x) (by simp) hn)
      have hvar : (u == v) = false := by simpa using Ne.symm e
      rw [List.find?_cons, hother, List.lookup_cons, hvar]
      exact hbs

theorem value?_eq_get? {m : Model} (h : m.OfPackets) {u : Variable} (hu : u ∈ Field.all) :
    m.value? u.name = m.get? u :=
  value?_of_unique (Field.name_nonempty u hu) fun b hb hname => (h b hb u hu hname).1

theorem get?_lt_modulus {m : Model} (h : m.OfPackets) {u : Variable} (hu : u ∈ Field.all) {x : Nat}
    (hx : m.get? u = some x) : x < u.modulus :=
  (h (u, x) (mem_bindings_of_get? hx) u hu rfl).2

theorem fitsFields_assignment {m : Model} (h : m.OfPackets) : m.assignment.FitsFields := by
  intro u hu
  cases hx : m.get? u with
  | none => simpa [assignment, hx] using u.modulus_pos
  | some x => simpa [assignment, hx] using get?_lt_modulus h hu hx

/-! ## The packet -/

theorem packet_eq_ok {m : Model} (h : m.OfPackets) :
    ∃ address : Option Address, address.map (·.value) = m.get? Field.sourceAddress ∧
      m.packet = .ok ⟨address, (m.get? Field.sourcePort).map Int.ofNat,
        (m.get? Field.destinationPort).map Int.ofNat, (m.get? Field.protocol).map Int.ofNat⟩ := by
  have hvalue : ∀ u ∈ Field.all, m.value? u.name = m.get? u := fun u hu => value?_eq_get? h hu
  simp only [Field.all, List.forall_mem_cons] at hvalue
  obtain ⟨ha, hs, hd, hp, -⟩ := hvalue
  simp only [packet, ha, hs, hd, hp]
  cases hx : m.get? Field.sourceAddress with
  | none => exact ⟨none, rfl, rfl⟩
  | some n =>
    have hn : n < UInt32.size := get?_lt_modulus h (by simp [Field.all]) hx
    have ha : Address.ofNat n = .ok ⟨n, hn⟩ := dif_pos hn
    refine ⟨some ⟨n, hn⟩, rfl, ?_⟩
    simp [ha, Invalid.ofAddress]

theorem toNat_getD_map (o : Option Nat) : ((o.map Int.ofNat).getD 0).toNat = o.getD 0 := by
  cases o <;> rfl

theorem forall_map_ofNat (o : Option Nat) (y : Nat) :
    (∀ n : Int, o.map Int.ofNat = some n → n = y) ↔ ∀ x, o = some x → y = x := by
  cases o with
  | none => simp
  | some x =>
    simp only [Option.map_some, Option.some.injEq, forall_eq', Int.ofNat_eq_natCast, Int.ofNat_inj]
    exact eq_comm

theorem forall_map_value (o : Option Address) (y : Nat) :
    (∀ a, o = some a → a.value = y) ↔ ∀ x, o.map (·.value) = some x → y = x := by
  cases o <;> simp [eq_comm]

/-- The packet of a model stands for the datagrams that have the fields bound, and with zero for its
open fields it is the datagram of the model. -/
theorem packet_eq {m : Model} (h : m.OfPackets) :
    ∃ p : Packet, m.packet = .ok p ∧ p.datagram = m.assignment.datagram ∧
      ∀ d : Datagram, p.Covers d ↔ ∀ u ∈ Field.all, ∀ x, m.get? u = some x → d.assignment u = x := by
  obtain ⟨address, ha, hp⟩ := packet_eq_ok h
  refine ⟨_, hp, ?_, fun d => ?_⟩
  · simp only [Packet.datagram, Assignment.datagram, assignment, ha, toNat_getD_map]
  · simp only [Packet.Covers, Field.all, List.forall_mem_cons, forall_map_ofNat, forall_map_value, ha]
    simp

/-- The datagram of a model has the fields that the model binds. -/
theorem datagram_assignment_eq {m : Model} (h : m.OfPackets) :
    ∀ u ∈ Field.all, ∀ x, m.get? u = some x → m.assignment.datagram.assignment u = x := by
  intro u hu x hx
  rw [Assignment.assignment_datagram (fitsFields_assignment h) u hu]
  exact m.extends_assignment u x hx

/-! ## Verdicts and rules -/

theorem holds_eq {m : Model} (hm : m.assignment.FitsFields) {f : Formula} {P : Datagram → Prop}
    [DecidablePred P] (hf : f.Means P) :
    m.holds f = .ok (decide (P m.assignment.datagram), m.complete f) := by
  simp [holds, hf.hasHole_eq, hf.eval_eq hm]

/-- The verdict read off a model is the decision on its datagram, and the model stands for the same
datagram afterwards. -/
theorem admitted_eq {m : Model} (hm : m.assignment.FitsFields) (fw : Firewall) :
    ∃ m' : Model, m.admitted fw = .ok (decide (fw.Admits m.assignment.datagram), m') ∧
      m'.assignment = m.assignment := by
  obtain ⟨f, hf, hmeans⟩ := fw.admits_means
  refine ⟨m.complete f, ?_, m.assignment_complete f⟩
  simp [admitted, hf, Failure.ofInvalid, holds_eq hm hmeans]

/-- The rules read off a model are those that match its datagram, and the model stands for the same
datagram afterwards. -/
theorem matchingRules_eq {m : Model} (hm : m.assignment.FitsFields) (rules : List Rule) :
    ∃ m' : Model, m.matchingRules rules =
        .ok (rules.filter fun r => r.enabled && decide (r.Matches m.assignment.datagram), m') ∧
      m'.assignment = m.assignment := by
  induction rules generalizing m with
  | nil => exact ⟨m, rfl, rfl⟩
  | cons r rest ih =>
    rw [matchingRules]
    cases he : r.enabled with
    | false =>
      obtain ⟨m', hm', hsame⟩ := ih hm
      exact ⟨m', by simp [hm', he], hsame⟩
    | true =>
      obtain ⟨f, hf, hmeans⟩ := r.condition_means
      have hsame := m.assignment_complete f
      obtain ⟨m', hm', hsame'⟩ := ih (m := m.complete f) (hsame ▸ hm)
      refine ⟨m', ?_, hsame'.trans hsame⟩
      rw [hsame] at hm'
      by_cases hr : r.Matches m.assignment.datagram
      · simp [hf, Failure.ofInvalid, holds_eq hm hmeans, hm', hr, he]
      · simp [hf, Failure.ofInvalid, holds_eq hm hmeans, hm', hr, he]

end Model

/-! ## Solvers of packets -/

/-- Asked about packets, the solver answers with models of packets, be they right or wrong. -/
def Solver.FitsPackets (solver : Solver) : Prop :=
  ∀ (q : Formula) (P : Datagram → Prop) (m : Model), q.Means P → solver q = .sat m → m.OfPackets

theorem Solver.Correct.fitsPackets {solver : Solver} (h : solver.Correct) : solver.FitsPackets :=
  fun q _ m hq hsat => (h.sat q m hq.hasHole_eq hsat).ofPackets hq

/-- Asked about packets, the solver answers with models of packets whose values fit, and these make
the question true whatever the variables are that they leave free. It may deny what can be made true,
or not know. -/
structure Solver.SoundOnPackets (solver : Solver) : Prop where
  fits : solver.FitsPackets
  inWidth : ∀ (q : Formula) (P : Datagram → Prop) (m : Model), q.Means P → solver q = .sat m →
    ∀ b ∈ m.bindings, b.2 < b.1.modulus
  eval_eq_true : ∀ (q : Formula) (P : Datagram → Prop) (m : Model), q.Means P → solver q = .sat m →
    ∀ σ : Assignment, σ.InWidth → Model.Extends σ m → q.eval σ = true

theorem Solver.Correct.soundOnPackets {solver : Solver} (h : solver.Correct) :
    solver.SoundOnPackets where
  fits := h.fitsPackets
  inWidth q _ m hq hsat := (h.sat q m hq.hasHole_eq hsat).inWidth
  eval_eq_true q _ m hq hsat := (h.sat q m hq.hasHole_eq hsat).eval_eq_true

/-- Asked about packets, the solver is sound and denies only what no values make true. Its models may
bind variables that the question does not speak of. -/
structure Solver.CorrectOnPackets (solver : Solver) : Prop extends solver.SoundOnPackets where
  unsat : ∀ (q : Formula) (P : Datagram → Prop), q.Means P → solver q = .unsat → ¬q.Satisfiable

theorem Solver.Correct.correctOnPackets {solver : Solver} (h : solver.Correct) :
    solver.CorrectOnPackets where
  toSoundOnPackets := h.soundOnPackets
  unsat q _ hq := h.unsat q hq.hasHole_eq

/-- What the question means is true of no datagram if it is denied. -/
theorem Solver.CorrectOnPackets.not_of_unsat {solver : Solver} (h : solver.CorrectOnPackets) {q : Formula}
    {P : Datagram → Prop} (hq : q.Means P) (hunsat : solver q = .unsat) (d : Datagram) : ¬P d :=
  fun hd => h.unsat q P hq hunsat ⟨d.assignment, d.assignment_inWidth, (hq.holds_iff d).mpr hd⟩

/-- What the question means is true of every datagram that has the fields bound by the model. -/
theorem Solver.SoundOnPackets.of_bound {solver : Solver} (h : solver.SoundOnPackets) {q : Formula}
    {P : Datagram → Prop} (hq : q.Means P) {m : Model} (hsat : solver q = .sat m) {d : Datagram}
    (hd : ∀ u ∈ Field.all, ∀ x, m.get? u = some x → d.assignment u = x) : P d := by
  -- A model may bind variables beside the fields; there the assignment follows the model.
  let σ : Assignment := fun v => if v ∈ Field.all then d.assignment v else m.assignment v
  have hwidth : σ.InWidth := by
    intro v
    by_cases hv : v ∈ Field.all
    · simpa [σ, hv] using d.assignment_inWidth v
    · simpa [σ, hv] using Model.assignment_inWidth (h.inWidth q P m hq hsat) v
  have hextends : Model.Extends σ m := by
    intro v x hx
    by_cases hv : v ∈ Field.all
    · simpa [σ, hv] using hd v hv x hx
    · simpa [σ, hv] using m.extends_assignment v x hx
  have hsame : q.eval σ = q.eval d.assignment :=
    Formula.eval_congr q fun v hv => by simp [σ, hq.mem_all v hv]
  rw [← hq.holds_iff d, ← hsame]
  exact h.eval_eq_true q P m hq hsat σ hwidth hextends

end FirewallPolicy
