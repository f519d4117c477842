import Mathlib.Data.Set.Card
import FirewallPolicy.Proofs.Search.Classes
import FirewallPolicy.Proofs.Search.Lifecycle

/-!
The search ends.

There are finitely many datagrams, so two firewalls differ on a number of them
(`Firewall.disagreement`). The classes of the witnesses are parts of the disagreement, none of them
without a datagram and no two with one in common, so there are at most that many witnesses
(`Parted.length_le`). A call with a solver that is sound and always answers does not fail
(`failure?_next`); without limit and deadline it finds one more witness or exhausts the search
(`next_of_sound`). Each call that finds something uses up a datagram, and `Search.drain` has more steps
than there are datagrams. If the firewalls decide all datagrams alike, the first call ends the search
(`exhausted_at_once`).

A search that is drained is a run like any other (`drainFuel_eq_run`), so what is known of runs is
known of it.

Proved: `drain_exhausts`, to drain a search is to find at most as many inconsistencies as there are
datagrams in the disagreement, then nothing, and the search is exhausted.
-/

namespace FirewallPolicy

/-! ## Counting datagrams -/

namespace Datagram

def equivFields :
    Datagram ≃ Fin UInt32.size × Fin UInt16.size × Fin UInt16.size × Fin UInt8.size where
  toFun d := (d.sourceAddress, d.sourcePort, d.destinationPort, d.protocol)
  invFun fields := ⟨fields.1, fields.2.1, fields.2.2.1, fields.2.2.2⟩
  left_inv _ := rfl
  right_inv _ := rfl

instance : Finite Datagram := .of_equiv _ equivFields.symm

theorem card_eq : Nat.card Datagram = 2 ^ 72 := by
  rw [Nat.card_congr equivFields]
  simp [UInt32.size, UInt16.size, UInt8.size]

end Datagram

namespace Firewall

def disagreement (first second : Firewall) : Set Datagram := { d | ¬(first.Admits d ↔ second.Admits d) }

theorem ncard_disagreement_le (first second : Firewall) : (first.disagreement second).ncard ≤ 2 ^ 72 := by
  rw [← Datagram.card_eq]
  exact Set.ncard_le_card _

end Firewall

namespace Search

/-- There are no more witnesses than datagrams in the disagreement. -/
theorem Parted.length_le {s : Search} (h : Parted s) :
    s.witnesses.length ≤ (s.firewalls.1.disagreement s.firewalls.2).ncard := by
  -- Each class has a datagram of its own, the one with zero for the open fields.
  have hnodup : (s.witnesses.map (·.datagram)).Nodup := by
    rw [List.Nodup, List.pairwise_map]
    refine h.disjoint.imp_of_mem fun {w w'} hw hw' hdisjoint heq => ?_
    exact hdisjoint w.datagram ⟨h.grounded w hw, heq ▸ h.grounded w' hw'⟩
  have hsub : ((s.witnesses.map (·.datagram)).toFinset : Set Datagram) ⊆
      s.firewalls.1.disagreement s.firewalls.2 := by
    intro d hd
    rw [List.coe_toFinset] at hd
    obtain ⟨w, hw, rfl⟩ := List.mem_map.mp hd
    exact h.sound w hw _ (h.grounded w hw)
  calc s.witnesses.length
      = ((s.witnesses.map (·.datagram)).toFinset : Set Datagram).ncard := by
        rw [Set.ncard_coe_finset, List.toFinset_card_of_nodup hnodup, List.length_map]
    _ ≤ (s.firewalls.1.disagreement s.firewalls.2).ncard := Set.ncard_le_ncard hsub

/-! ## One call -/

/-- The datagram of a model is open, so the firewalls differ on it. -/
theorem open_of_sat {solver : Solver} (hsolver : solver.SoundOnPackets) {expired : Bool} {s : Search}
    (hs : s.Grounded) {q : Formula} (hask : Asks expired s q) {m : Model} (hsat : solver q = .sat m) :
    s.Open m.assignment.datagram := by
  have hmodel := hsolver.fits _ _ _ (hask.means hs) hsat
  exact hsolver.of_bound (hask.means hs) hsat (Model.datagram_assignment_eq hmodel)

/-- So a report can be read off the model. -/
theorem exists_inconsistency_of_sat {solver : Solver} (hsolver : solver.SoundOnPackets) {expired : Bool}
    {s : Search} (hs : s.Grounded) {q : Formula} (hask : Asks expired s q) {m : Model}
    (hsat : solver q = .sat m) : ∃ i, s.inconsistency m = .ok i := by
  have hmodel := hsolver.fits _ _ _ (hask.means hs) hsat
  have hopen := open_of_sat hsolver hs hask hsat
  obtain ⟨p, -, ⟨halike, -⟩ | ⟨-, hok⟩⟩ := s.inconsistency_of_packets hmodel
  · exact absurd halike hopen.1
  · exact ⟨_, hok⟩

theorem failure?_next {solver : Solver} (hsolver : solver.SoundOnPackets) (hdecisive : solver.Decisive)
    {s : Search} (hs : s.Grounded) (expired : Bool) : (s.next solver expired).2.failure? = none := by
  have hmove := next_moves solver expired s
  generalize s.next solver expired = out at hmove
  cases hmove with
  | refused hsearching hlimit hexpired hnot =>
    obtain ⟨q, hask⟩ := hs.exists_asks hsearching hlimit hexpired
    exact absurd hask (hnot q)
  | unknown _ hunknown => exact absurd hunknown (hdecisive _ _)
  | unread hask hsat hread =>
    obtain ⟨i, hok⟩ := exists_inconsistency_of_sat hsolver hs hask hsat
    cases hok.symm.trans hread
  | _ => rfl

/-- A search without limit and deadline finds one more witness or is exhausted. -/
theorem next_of_sound {solver : Solver} (hsolver : solver.SoundOnPackets) (hdecisive : solver.Decisive)
    {s : Search} (hs : s.Grounded) (hsearching : s.phase = .searching) (hlimit : s.limit = none) :
    s.next solver false = ({ s.asked.finish with exhausted := true }, .exhausted) ∨
      ∃ i : Inconsistency,
        s.next solver false = ({ s.asked with witnesses := s.witnesses ++ [i.packet] }, .found i) := by
  have hbelow : s.limitReached = false := by simp [limitReached, hlimit]
  have hsucceeds := failure?_next hsolver hdecisive hs false
  have hmove := next_moves solver false s
  generalize s.next solver false = out at hmove hsucceeds
  cases hmove with
  | ended hdone => simp [hsearching] at hdone
  | limitReached _ hreached => simp [hbelow] at hreached
  | deadlinePassed _ _ hexpired => cases hexpired
  | exhausted => exact Or.inl rfl
  | found => exact Or.inr ⟨_, rfl⟩
  | _ => cases hsucceeds

/-- If the firewalls decide all datagrams alike, a search that can put its question is exhausted by
it. -/
theorem next_of_agree {solver : Solver} (hsolver : solver.SoundOnPackets) (hdecisive : solver.Decisive)
    {s : Search} (hs : s.Grounded) (hsearching : s.phase = .searching) (hlimit : s.limitReached = false)
    (hagree : ∀ d, s.firewalls.1.Admits d ↔ s.firewalls.2.Admits d) :
    s.next solver false = ({ s.asked.finish with exhausted := true }, .exhausted) := by
  obtain ⟨q, hask⟩ := hs.exists_asks hsearching hlimit rfl
  rw [hask.next_eq]
  cases hanswer : solver q with
  | unsat => rfl
  | unknown reason => exact absurd hanswer (hdecisive q reason)
  | sat m => exact absurd (hagree _) (open_of_sat hsolver hs hask hanswer).1

/-- A search between firewalls that decide all datagrams alike is exhausted by its first call, unless
its limit forbids that call. -/
theorem exhausted_at_once {first second : Firewall}
    (hagree : ∀ d, first.Admits d ↔ second.Admits d) {limit : Option Int}
    (hlimit : ∀ n, limit = some n → 0 < n) {solver : Solver} (hsolver : solver.SoundOnPackets)
    (hdecisive : solver.Decisive) :
    ∃ s, start first second limit = .ok s ∧
      s.next solver false = ({ s.asked.finish with exhausted := true }, .exhausted) := by
  have hstart := start_of_nonneg first second fun n hn => Int.le_of_lt (hlimit n hn)
  have hbelow : limitReached { firewalls := (first, second), limit } = false := by
    cases limit with
    | none => rfl
    | some n =>
      have hpos := hlimit n rfl
      simp [limitReached, hpos]
  exact ⟨_, hstart, next_of_agree hsolver hdecisive (grounded_of_start hstart) rfl hbelow hagree⟩

/-! ## Draining -/

/-- To drain a search is to make some calls. -/
theorem drainFuel_eq_run (solver : Nat → Solver) (expired : Nat → Bool) (fuel : Nat) (s : Search) :
    ∃ calls : List Call, drainFuel solver expired fuel s = s.run calls ∧
      ∀ c ∈ calls, ∃ n, c = ⟨solver n, expired n⟩ := by
  induction fuel generalizing s with
  | zero => exact ⟨[], rfl, by simp⟩
  | succ fuel ih =>
    rcases hnext : s.next (solver s.queries) (expired s.queries) with ⟨t, step⟩
    cases step with
    | found i =>
      obtain ⟨calls, hrun, hcalls⟩ := ih t
      refine ⟨⟨solver s.queries, expired s.queries⟩ :: calls, ?_, ?_⟩
      · simp [drainFuel, run, hnext, hrun]
      · exact List.forall_mem_cons.mpr ⟨⟨s.queries, rfl⟩, hcalls⟩
    | _ =>
      refine ⟨[⟨solver s.queries, expired s.queries⟩], ?_, ?_⟩
      · simp [drainFuel, run, hnext]
      · exact List.forall_mem_singleton.mpr ⟨s.queries, rfl⟩

theorem Trace.inconsistencies_eq (trace : Trace) :
    trace.inconsistencies = (trace.map (·.2)).filterMap Step.inconsistency? := by
  rw [List.filterMap_map]
  rfl

/-- With a step for every datagram of the disagreement that is not used up, and one more, the last
step is the one that exhausts the search, and all before it find something. -/
theorem drainFuel_ends {solver : Nat → Solver} (hsolver : ∀ n, (solver n).SoundOnPackets)
    (hdecisive : ∀ n, (solver n).Decisive) {fuel : Nat} {s : Search} (hs : Parted s)
    (hsearching : s.phase = .searching) (hlimit : s.limit = none)
    (hfuel : (s.firewalls.1.disagreement s.firewalls.2).ncard < s.witnesses.length + fuel) :
    ∃ found : List Inconsistency,
      (drainFuel solver (fun _ => false) fuel s).map (·.2) = found.map .found ++ [.exhausted] ∧
        (Trace.last s (drainFuel solver (fun _ => false) fuel s)).phase = .done ∧
        (Trace.last s (drainFuel solver (fun _ => false) fuel s)).exhausted = true := by
  induction fuel generalizing s with
  | zero =>
    have hle := hs.length_le
    omega
  | succ fuel ih =>
    rcases next_of_sound (hsolver s.queries) (hdecisive s.queries) hs.grounded hsearching hlimit with
      hnext | ⟨i, hnext⟩
    · refine ⟨[], ?_, ?_, ?_⟩ <;> simp [drainFuel, hnext, finish]
    · have hparted := hs.next (hsolver s.queries) false
      rw [hnext] at hparted
      have hrest : (s.firewalls.1.disagreement s.firewalls.2).ncard <
          (s.witnesses ++ [i.packet]).length + fuel := by
        rw [List.length_append, List.length_singleton]
        omega
      obtain ⟨found, hsteps, hdone, hex⟩ := ih hparted hsearching hlimit hrest
      refine ⟨i :: found, ?_, ?_, ?_⟩
      · simpa [drainFuel, hnext] using hsteps
      · simpa [drainFuel, hnext] using hdone
      · simpa [drainFuel, hnext] using hex

/-- To drain a search without limit and deadline is to find at most as many inconsistencies as there
are datagrams in the disagreement, and then nothing. No step fails, the search is done and exhausted,
and every packet found has a pattern. -/
theorem drain_exhausts (first second : Firewall) {solver : Nat → Solver}
    (hsolver : ∀ n, (solver n).SoundOnPackets) (hdecisive : ∀ n, (solver n).Decisive) :
    ∃ (s : Search) (found : List Inconsistency), start first second none = .ok s ∧
      let trace := s.drain solver fun _ => false
      trace.map (·.2) = found.map .found ++ [.exhausted] ∧
        found.length ≤ (first.disagreement second).ncard ∧
        (trace.last s).phase = .done ∧ (trace.last s).exhausted = true ∧
        (trace.last s).witnesses = found.map (·.packet) ∧
        ∀ w ∈ (trace.last s).witnesses, ∃ f, w.pattern = .ok f := by
  let s : Search := { firewalls := (first, second) }
  have hstart : start first second none = .ok s := rfl
  have hfuel : (first.disagreement second).ncard < 0 + maxSteps := by
    rw [Nat.zero_add]
    exact Nat.lt_succ_of_le (first.ncard_disagreement_le second)
  obtain ⟨found, hsteps, hdone, hex⟩ :=
    drainFuel_ends hsolver hdecisive (parted_of_start hstart) rfl rfl hfuel
  obtain ⟨calls, hrun, hcalls⟩ := drainFuel_eq_run solver (fun _ => false) maxSteps s
  have hsound : ∀ c ∈ calls, c.solver.SoundOnPackets := by
    intro c hc
    obtain ⟨n, rfl⟩ := hcalls c hc
    exact hsolver n
  have hlast : Trace.last s (s.drain solver fun _ => false) = s.after calls := congrArg (Trace.last s) hrun
  have hwitnesses : (s.after calls).witnesses = found.map (·.packet) := by
    rw [witnesses_after hstart, ← hrun, Trace.inconsistencies_eq, hsteps]
    simp [Step.inconsistency?, Function.comp_def]
  have hparted : Parted (s.after calls) := parted_after hstart hsound
  refine ⟨s, found, hstart, hsteps, ?_, hdone, hex, hlast ▸ hwitnesses, ?_⟩
  · have hle := hparted.length_le
    rw [hwitnesses, List.length_map, firewalls_after hstart] at hle
    exact hle
  · intro w hw
    rw [hlast] at hw
    obtain ⟨f, hf, -⟩ := Packet.pattern_means (hparted.grounded w hw)
    exact ⟨f, hf⟩

/-- The library's solver finds the questions to name servers in two steps, and in a third one that
there is nothing else. -/
theorem name_questions_are_drained :
    ∃ (s : Search) (found : List Inconsistency), start names {} none = .ok s ∧
      Solver.exact.SoundOnPackets ∧ Solver.exact.Decisive ∧
      (s.drain (fun _ => .exact) fun _ => false).map (·.2) = found.map .found ++ [.exhausted] ∧
      found.length ≤ (names.disagreement {}).ncard ∧
      found.map (·.packet) = [{ destinationPort := some 53, protocol := some 6 },
        { destinationPort := some 53, protocol := some 17 }] := by
  obtain ⟨s, found, hstart, hsteps, hle, -, -, hwitnesses, -⟩ :=
    drain_exhausts names {} (fun _ => exact_correct.soundOnPackets) fun _ => exact_decisive
  refine ⟨s, found, hstart, exact_correct.soundOnPackets, exact_decisive, hsteps, hle, ?_⟩
  rw [← hwitnesses, eq_of_start hstart]
  decide +kernel

end Search

end FirewallPolicy
