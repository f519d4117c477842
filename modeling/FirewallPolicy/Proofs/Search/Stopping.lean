import FirewallPolicy.Proofs.Search.Limit

/-!
How a search stops, whatever the clock says and whether or not the solver knows.

A solver that is sound may still not know the answer. Then a call finds one more witness or ends the search in
one of four ways (`next_stops`): the limit is reached, the deadline has passed, nothing is left to find, or the
solver does not know. No other failure can happen. As every witness uses up a datagram, `Search.drain` gets to such
a call.

Proved: `drain_stops`, to drain a search is to find some inconsistencies, then to stop for one of these reasons,
and the search is exhausted exactly if it stopped because nothing was left.
-/

namespace FirewallPolicy.Search

/-- A step that ends a search with the limit, when so many are found. -/
inductive Stop (limit : Option Int) (count : Nat) : Step → Prop
  | limitReached {k : Int} : limit = some k → k ≤ count → Stop limit count .limitReached
  | deadlinePassed : Stop limit count .deadlinePassed
  | exhausted : Stop limit count .exhausted
  | unknown (reason : String) : Stop limit count (.failed (.unknown reason))

theorem Stop.inconsistency?_eq {limit : Option Int} {count : Nat} {step : Step} (h : Stop limit count step) :
    step.inconsistency? = none := by
  cases h <;> rfl

/-- A call with a sound solver finds one more witness or stops the search. -/
theorem next_stops {solver : Solver} (hsolver : solver.SoundOnPackets) {s : Search} (hs : s.Grounded)
    (hsearching : s.phase = .searching) (hfresh : s.exhausted = false) (expired : Bool) :
    (∃ i : Inconsistency,
      s.next solver expired = ({ s.asked with witnesses := s.witnesses ++ [i.packet] }, .found i)) ∨
    ∃ t last, s.next solver expired = (t, last) ∧ Stop s.limit s.witnesses.length last ∧
      (t.exhausted = true ↔ last = .exhausted) := by
  have hmove := next_moves solver expired s
  generalize s.next solver expired = out at hmove
  cases hmove with
  | ended hdone => simp [hsearching] at hdone
  | limitReached _ hreached =>
    obtain ⟨k, hk, hle⟩ := (Option.any_eq_true ..).mp hreached
    refine Or.inr ⟨_, _, rfl, .limitReached hk (of_decide_eq_true hle), ?_⟩
    simp [finish, hfresh]
  | deadlinePassed => exact Or.inr ⟨_, _, rfl, .deadlinePassed, by simp [finish, hfresh]⟩
  | refused _ hlimit hexpired hnot =>
    obtain ⟨q, hask⟩ := hs.exists_asks hsearching hlimit hexpired
    exact absurd hask (hnot q)
  | unknown _ _ => exact Or.inr ⟨_, _, rfl, .unknown _, by simp [finish, asked, hfresh]⟩
  | exhausted => exact Or.inr ⟨_, _, rfl, .exhausted, by simp⟩
  | unread hask hsat hread =>
    obtain ⟨i, hok⟩ := exists_inconsistency_of_sat hsolver hs hask hsat
    cases hok.symm.trans hread
  | found => exact Or.inl ⟨_, rfl⟩

/-- The search finds the inconsistencies, and then the last step stops it. -/
structure Stopped (s : Search) (trace : Trace) (found : List Inconsistency) (last : Step) : Prop where
  steps_eq : trace.map (·.2) = found.map .found ++ [last]
  stop : Stop s.limit (s.witnesses.length + found.length) last
  exhausted_iff : (trace.last s).exhausted = true ↔ last = .exhausted

/-- With a step for every datagram of the disagreement that is not used up, and one more, the search stops. -/
theorem drainFuel_stops {solver : Nat → Solver} (hsolver : ∀ n, (solver n).SoundOnPackets) (expired : Nat → Bool)
    {fuel : Nat} {s : Search} (hs : Parted s) (hsearching : s.phase = .searching) (hfresh : s.exhausted = false)
    (hfuel : (s.firewalls.1.disagreement s.firewalls.2).ncard < s.witnesses.length + fuel) :
    ∃ found last, Stopped s (drainFuel solver expired fuel s) found last := by
  induction fuel generalizing s with
  | zero =>
    have hle := hs.length_le
    omega
  | succ fuel ih =>
    rcases next_stops (hsolver s.queries) hs.grounded hsearching hfresh (expired s.queries) with
      ⟨i, hnext⟩ | ⟨t, last, hnext, hstop, hexhausted⟩
    · have hparted := hs.next (hsolver s.queries) (expired s.queries)
      rw [hnext] at hparted
      have hlength : (s.witnesses ++ [i.packet]).length = s.witnesses.length + 1 := List.length_append
      have hrest : (s.firewalls.1.disagreement s.firewalls.2).ncard <
          (s.witnesses ++ [i.packet]).length + fuel := by omega
      obtain ⟨found, last, hsteps, hstop, hexhausted⟩ := ih hparted hsearching hfresh hrest
      have hcount : (s.witnesses ++ [i.packet]).length + found.length =
          s.witnesses.length + (i :: found).length := by
        rw [hlength, List.length_cons]
        omega
      rw [drainFuel_of_found hnext]
      refine ⟨i :: found, last, ?_, hcount ▸ hstop, ?_⟩
      · rw [List.map_cons, hsteps]
        rfl
      · rw [Trace.last_cons]
        exact hexhausted
    · rw [drainFuel_of_ended hnext hstop.inconsistency?_eq]
      exact ⟨[], last, rfl, hstop, hexhausted⟩

theorem drain_stops (first second : Firewall) (k : Nat) {solver : Nat → Solver}
    (hsolver : ∀ n, (solver n).SoundOnPackets) (expired : Nat → Bool) :
    let s := upTo k { firewalls := (first, second) }
    ∃ found last, Stopped s (s.drain solver expired) found last := by
  have hfuel : (first.disagreement second).ncard < 0 + maxSteps := by
    rw [Nat.zero_add]
    exact Nat.lt_succ_of_le (first.ncard_disagreement_le second)
  exact drainFuel_stops hsolver expired (parted_of_start (start_natCast first second k)) rfl rfl hfuel

namespace Stopped

variable {s : Search} {trace : Trace} {found : List Inconsistency} {last : Step} (h : Stopped s trace found last)
include h

theorem inconsistencies_eq : trace.inconsistencies = found :=
  inconsistencies_of_steps h.steps_eq h.stop.inconsistency?_eq

/-- Nothing failed, or the solver did not know. -/
theorem failure?_cases : trace.failure? = none ∨ ∃ reason, trace.failure? = some (.unknown reason) := by
  rw [failure?_of_steps h.steps_eq]
  cases h.stop with
  | unknown reason => exact Or.inr ⟨reason, rfl⟩
  | _ => exact Or.inl rfl

theorem deadlinePassed_mem_iff : .deadlinePassed ∈ trace.map (·.2) ↔ last = .deadlinePassed := by
  rw [h.steps_eq]
  simp [eq_comm]

/-- With room for one, a search that did not fail has found all there is and that is nothing, unless it found
something or its time ran out. -/
theorem not_exhausted_iff {k : Int} (hlimit : s.limit = some k) (hroom : (s.witnesses.length : Int) < k)
    (hfailure : trace.failure? = none) :
    ¬(trace.inconsistencies = [] ∧ (trace.last s).exhausted = true) ↔
      trace.inconsistencies ≠ [] ∨ .deadlinePassed ∈ trace.map (·.2) := by
  rw [h.inconsistencies_eq, h.exhausted_iff, h.deadlinePassed_mem_iff]
  rw [failure?_of_steps h.steps_eq] at hfailure
  by_cases hfound : found = []
  · subst hfound
    cases h.stop with
    | limitReached hk hle =>
      cases hlimit.symm.trans hk
      exact absurd hle (by simpa using hroom)
    | deadlinePassed => simp
    | exhausted => simp
    | unknown reason => cases hfailure
  · simp [hfound]

end Stopped

end FirewallPolicy.Search
