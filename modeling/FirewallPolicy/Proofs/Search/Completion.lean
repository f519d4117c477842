import FirewallPolicy.Proofs.Search.Limit

/-!
A search that is drained is completed, whatever its limit and its deadline.

A call with a solver that is sound and always answers finds one more witness or ends the search
(`next_completes`): the limit and the deadline are further ways for it to end, and none of them is a
failure. Each call that goes on uses up a datagram, as it does without limit and deadline, so the steps
of `Search.drain` are enough.

Proved: `drain_completes`, a search whose limit is not negative can be started, no step of draining it
fails, and it is done then.
-/

namespace FirewallPolicy.Search

/-- A call finds one more witness, or ends the search without a failure. -/
theorem next_completes {solver : Solver} (hsolver : solver.SoundOnPackets) (hdecisive : solver.Decisive)
    {s : Search} (hs : s.Grounded) (expired : Bool) :
    (∃ i : Inconsistency,
      s.next solver expired = ({ s.asked with witnesses := s.witnesses ++ [i.packet] }, .found i)) ∨
      ∃ t step, s.next solver expired = (t, step) ∧ t.phase = .done ∧ step.inconsistency? = none ∧
        step.failure? = none := by
  have hsucceeds := failure?_next hsolver hdecisive hs expired
  have hmove := next_moves solver expired s
  generalize s.next solver expired = out at hmove hsucceeds
  cases hmove with
  | ended hdone => exact Or.inr ⟨_, _, rfl, hdone, rfl, rfl⟩
  | limitReached => exact Or.inr ⟨_, _, rfl, rfl, rfl, rfl⟩
  | deadlinePassed => exact Or.inr ⟨_, _, rfl, rfl, rfl, rfl⟩
  | exhausted => exact Or.inr ⟨_, _, rfl, rfl, rfl, rfl⟩
  | found => exact Or.inl ⟨_, rfl⟩
  | _ => cases hsucceeds

theorem Trace.failure?_cons_found (s : Search) (i : Inconsistency) (trace : Trace) :
    Trace.failure? ((s, .found i) :: trace) = trace.failure? := rfl

section Drain

variable {solver : Nat → Solver} (hsolver : ∀ n, (solver n).SoundOnPackets)
  (hdecisive : ∀ n, (solver n).Decisive) (expired : Nat → Bool)
include hsolver hdecisive

/-- With a step for every datagram of the disagreement that is not used up, and one more, no step fails
and the search is done. -/
theorem drainFuel_completes {fuel : Nat} {s : Search} (hs : Parted s)
    (hfuel : (s.firewalls.1.disagreement s.firewalls.2).ncard < s.witnesses.length + fuel) :
    Trace.failure? (drainFuel solver expired fuel s) = none ∧
      (Trace.last s (drainFuel solver expired fuel s)).phase = .done := by
  induction fuel generalizing s with
  | zero =>
    have hle := hs.length_le
    omega
  | succ fuel ih =>
    rcases next_completes (hsolver s.queries) (hdecisive s.queries) hs.grounded (expired s.queries) with
      ⟨i, hnext⟩ | ⟨t, step, hnext, hdone, hnothing, hsucceeds⟩
    · have hparted := hs.next (hsolver s.queries) (expired s.queries)
      rw [hnext] at hparted
      have hrest : (s.firewalls.1.disagreement s.firewalls.2).ncard <
          (s.witnesses ++ [i.packet]).length + fuel := by
        rw [List.length_append, List.length_singleton]
        omega
      rw [drainFuel_of_found hnext, Trace.failure?_cons_found, Trace.last_cons]
      exact ih hparted hrest
    · rw [drainFuel_of_ended hnext hnothing, Trace.last_cons, Trace.last_nil]
      exact ⟨by simp [Trace.failure?, hsucceeds], hdone⟩

/-- A search whose limit is not negative can be started and drained. -/
theorem drain_completes (first second : Firewall) {limit : Option Int}
    (hlimit : ∀ n, limit = some n → 0 ≤ n) :
    ∃ s, start first second limit = .ok s ∧ (s.drain solver expired).failure? = none ∧
      ((s.drain solver expired).last s).phase = .done := by
  have hstart := start_of_nonneg first second hlimit
  have hfuel : (first.disagreement second).ncard < 0 + maxSteps := by
    rw [Nat.zero_add]
    exact Nat.lt_succ_of_le (first.ncard_disagreement_le second)
  exact ⟨_, hstart, drainFuel_completes hsolver hdecisive expired (parted_of_start hstart) hfuel⟩

end Drain

end FirewallPolicy.Search
