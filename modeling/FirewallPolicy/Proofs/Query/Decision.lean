import FirewallPolicy.Proofs.Reading
import FirewallPolicy.Query

/-!
What a query answers.

The solver is asked for a packet of the pattern, and what is answered is read off its model
(`Query.run_of_sat`). A solver that is correct on packets may bind open fields; then the answer is about
some datagram that the packet stands for (`Query.exists_datagram`). A pattern speaks of the present
fields only (`Packet.mem_present_of_mem_fields`), so a correct solver binds no other field, and every
open field is read as zero: whatever model the solver gives, it stands for the datagram of the packet
(`Packet.datagram_of_forces`).

Proved: `Query.run_eq`, a query about a packet whose fields fit gives the decision on that datagram and
the rules that match it, whichever correct solver is asked; `Packet.covers_datagram_iff`, the fields fit
exactly if the packet stands for its own datagram.
-/

namespace FirewallPolicy

theorem Datagram.eq_of_assignment {d d' : Datagram}
    (h : ∀ u ∈ Field.all, d.assignment u = d'.assignment u) : d = d' := by
  simp only [Field.all, List.forall_mem_cons, Datagram.assignment_sourceAddress,
    Datagram.assignment_sourcePort, Datagram.assignment_destinationPort,
    Datagram.assignment_protocol, Fin.val_inj] at h
  obtain ⟨ha, hs, hd, hp, -⟩ := h
  cases d
  cases d'
  simp_all

namespace Packet

/-! ## The fields of a pattern -/

theorem eq_equals_of_pinned {v : Variable} {n : Int} {f : Formula} (h : pinned v n = .ok f) :
    f = .equals v n := by
  obtain ⟨-, -, h⟩ := exists_of_bind_eq_ok h
  exact (Except.ok.inj h).symm

theorem fieldsOfAll_of_pinned {xs : List (Variable × Int)} {fs : List Formula}
    (h : xs.mapM (fun x => pinned x.1 x.2) = .ok fs) : Formula.fieldsOfAll fs = xs.map (·.1) := by
  rw [mapM_eq_ok_iff] at h
  induction h with
  | nil => rfl
  | cons hf _ ih => simp [Formula.fieldsOfAll, eq_equals_of_pinned hf, Formula.fields, ih]

/-- A pattern speaks of the present fields only. -/
theorem mem_present_of_mem_fields {p : Packet} {f : Formula} (h : p.pattern = .ok f) {v : Variable}
    (hv : v ∈ f.fields) : ∃ n, (v, n) ∈ p.present := by
  obtain ⟨parts, hparts, h⟩ := exists_of_bind_eq_ok h
  cases h
  rw [Formula.fields_conjunction, fieldsOfAll_of_pinned hparts] at hv
  obtain ⟨⟨u, n⟩, hmem, rfl⟩ := List.mem_map.mp hv
  exact ⟨n, hmem⟩

theorem datagram_assignment_of_open (p : Packet) :
    ∀ u ∈ Field.all, (∀ n, (u, n) ∉ p.present) → p.datagram.assignment u = 0 := by
  simp only [Field.all, List.forall_mem_cons]
  refine ⟨fun h => ?_, fun h => ?_, fun h => ?_, fun h => ?_, by simp⟩
  · cases hx : p.sourceAddress with
    | none => simp [datagram, Datagram.ofNats, hx]
    | some a => exact absurd (by simp [present, hx]) (h a.value)
  · cases hx : p.sourcePort with
    | none => simp [datagram, Datagram.ofNats, hx]
    | some n => exact absurd (by simp [present, hx]) (h n)
  · cases hx : p.destinationPort with
    | none => simp [datagram, Datagram.ofNats, hx]
    | some n => exact absurd (by simp [present, hx]) (h n)
  · cases hx : p.protocol with
    | none => simp [datagram, Datagram.ofNats, hx]
    | some n => exact absurd (by simp [present, hx]) (h n)

/-! ## The datagram of a packet -/

structure Fits (p : Packet) : Prop where
  sourcePort : ∀ n, p.sourcePort = some n → 0 ≤ n ∧ n < (UInt16.size : Nat)
  destinationPort : ∀ n, p.destinationPort = some n → 0 ≤ n ∧ n < (UInt16.size : Nat)
  protocol : ∀ n, p.protocol = some n → 0 ≤ n ∧ n < (UInt8.size : Nat)

/-- A field keeps its value in so many bits exactly if the value fits. -/
theorem forall_eq_mod_iff {size : Nat} (hsize : 0 < size) (o : Option Int) :
    (∀ n, o = some n → n = ((o.getD 0).toNat % size : Nat)) ↔
      ∀ n, o = some n → 0 ≤ n ∧ n < size := by
  cases o with
  | none => simp
  | some n =>
    simp only [Option.some.injEq, forall_eq', Option.getD_some]
    constructor
    · intro h
      have hlt := Nat.mod_lt n.toNat hsize
      omega
    · rintro ⟨hle, hlt⟩
      rw [Nat.mod_eq_of_lt (by omega)]
      omega

/-- The fields of a packet fit exactly if the packet stands for its own datagram. -/
theorem covers_datagram_iff (p : Packet) : p.Covers p.datagram ↔ p.Fits := by
  have haddress : ∀ a, p.sourceAddress = some a → a.value = p.datagram.sourceAddress := by
    intro a ha
    simp [datagram, Datagram.ofNats, ha, Nat.mod_eq_of_lt a.value_lt]
  have hs := forall_eq_mod_iff (by decide : 0 < UInt16.size) p.sourcePort
  have hd := forall_eq_mod_iff (by decide : 0 < UInt16.size) p.destinationPort
  have hp := forall_eq_mod_iff (by decide : 0 < UInt8.size) p.protocol
  constructor
  · rintro ⟨-, h₁, h₂, h₃⟩
    exact ⟨hs.mp h₁, hd.mp h₂, hp.mp h₃⟩
  · rintro ⟨h₁, h₂, h₃⟩
    exact ⟨haddress, hs.mpr h₁, hd.mpr h₂, hp.mpr h₃⟩

/-- A model that forces the pattern of a packet stands for the datagram of the packet. -/
theorem datagram_of_forces {p : Packet} (hp : p.Covers p.datagram) {f : Formula}
    (hf : p.pattern = .ok f) {m : Model} (hm : m.Forces f) : m.assignment.datagram = p.datagram := by
  obtain ⟨f', hf', hmeans⟩ := pattern_means hp
  rw [hf] at hf'
  cases hf'
  have hfits := Model.fitsFields_assignment (hm.ofPackets hmeans)
  have hmodel : p.Covers m.assignment.datagram := by
    classical
    have htrue := hm.eval_eq_true m.assignment (Model.assignment_inWidth hm.inWidth)
      m.extends_assignment
    rw [hmeans.eval_eq hfits] at htrue
    exact of_decide_eq_true htrue
  refine Datagram.eq_of_assignment fun u hu => ?_
  by_cases hpresent : ∃ n, (u, n) ∈ p.present
  · obtain ⟨n, hn⟩ := hpresent
    have hvalue : n = m.assignment.datagram.assignment u := (covers_iff p _).mp hmodel (u, n) hn
    have hself : n = p.datagram.assignment u := (covers_iff p _).mp hp (u, n) hn
    omega
  · -- The model leaves the field free: it binds only what the pattern speaks of.
    rw [Assignment.assignment_datagram hfits u hu,
      datagram_assignment_of_open p u hu fun n hn => hpresent ⟨n, hn⟩]
    cases hx : m.get? u with
    | none => simp [Model.assignment, hx]
    | some x =>
      have hmem := hm.mem_fields (u, x) (Model.mem_bindings_of_get? hx)
      exact absurd (mem_present_of_mem_fields hf hmem) hpresent

end Packet

/-! ## The answer -/

theorem Solver.CorrectOnPackets.exists_model {solver : Solver} (h : solver.CorrectOnPackets)
    (hdecisive : solver.Decisive) {f : Formula} {P : Datagram → Prop} (hf : f.Means P) {d : Datagram}
    (hd : P d) : ∃ m, solver f = .sat m := by
  cases hanswer : solver f with
  | unsat => exact absurd hd (h.not_of_unsat hf hanswer d)
  | unknown reason => exact absurd hanswer (hdecisive f reason)
  | sat m => exact ⟨m, rfl⟩

namespace Query

/-- A query gives the decision on the datagram of the model that the solver has for the pattern, and
the rules that match it. -/
theorem run_of_sat {solver : Solver} {p : Packet} {f : Formula} (hf : p.pattern = .ok f)
    (hhole : f.hasHole = false) {m : Model} (hanswer : solver f = .sat m)
    (hfits : m.assignment.FitsFields) (fw : Firewall) :
    run solver fw p =
      .ok ⟨decide (fw.Admits m.assignment.datagram), fw.matching m.assignment.datagram⟩ := by
  obtain ⟨m₁, h₁, hsame⟩ := Model.admitted_eq hfits fw
  obtain ⟨m₂, h₂, -⟩ := Model.matchingRules_eq (m := m₁) (hsame ▸ hfits) fw.rules
  rw [hsame] at h₂
  simp only [run, hf, Failure.ofInvalid, ok_bind, Solver.ask, hhole, hanswer, Bool.false_eq_true,
    if_false, h₁, h₂]
  rfl

variable {solver : Solver}

/-- A query about a packet whose fields fit is about one datagram that the packet stands for, whatever
the firewall is. -/
theorem exists_datagram (hsolver : solver.CorrectOnPackets) (hdecisive : solver.Decisive) {p : Packet}
    (hp : p.Covers p.datagram) :
    ∃ d, p.Covers d ∧ ∀ fw : Firewall, run solver fw p = .ok ⟨decide (fw.Admits d), fw.matching d⟩ := by
  obtain ⟨f, hf, hmeans⟩ := Packet.pattern_means hp
  obtain ⟨m, hanswer⟩ := hsolver.exists_model hdecisive hmeans hp
  have hmodel := hsolver.fits f _ m hmeans hanswer
  refine ⟨m.assignment.datagram, ?_, ?_⟩
  · exact hsolver.of_bound hmeans hanswer (Model.datagram_assignment_eq hmodel)
  · exact run_of_sat hf hmeans.hasHole_eq hanswer (Model.fitsFields_assignment hmodel)

/-- A query about a packet whose fields fit gives the decision on the datagram with zero for the open
fields, and the rules that match it. -/
theorem run_eq (hsolver : solver.Correct) (hdecisive : solver.Decisive) (fw : Firewall) {p : Packet}
    (hp : p.Covers p.datagram) :
    run solver fw p = .ok ⟨decide (fw.Admits p.datagram), fw.matching p.datagram⟩ := by
  obtain ⟨f, hf, hmeans⟩ := Packet.pattern_means hp
  obtain ⟨m, hanswer⟩ := hsolver.correctOnPackets.exists_model hdecisive hmeans hp
  have hforces := hsolver.sat f m hmeans.hasHole_eq hanswer
  rw [← Packet.datagram_of_forces hp hf hforces]
  exact run_of_sat hf hmeans.hasHole_eq hanswer
    (Model.fitsFields_assignment (hforces.ofPackets hmeans)) fw

end Query

end FirewallPolicy
