import FirewallPolicy.Proofs.Search.Ending

/-!
A limit cuts the search short, and does nothing else.

The same search with a limit (`Search.upTo`) has the same witnesses, puts the same question and reads
the same report off a model, so as long as the limit is not reached a call does the same with it as
without (`next_upTo`). To drain both is to make the same steps until the limit is reached
(`drainFuel_upTo`). The limit is looked at before the solver is asked, so a search that has found as
many inconsistencies as it may does not learn whether there are more.

Proved:
- `limit_truncates`: with a limit, the first inconsistencies of the search without it are found, as many
  as the limit allows, and the search is exhausted exactly if there are fewer than that;
- `drain_within_limit`: with a solver that is correct on packets, the inconsistencies found by a search with a limit are
  true of their classes, and they are all there are exactly if the limit is not reached.
-/

namespace FirewallPolicy.Search

def upTo (k : Nat) (s : Search) : Search := { s with limit := some k }

/-! ## One call -/

section Asks

variable {expired : Bool} {s : Search} {q : Formula}

theorem Asks.upTo (h : Asks expired s q) {k : Nat} (hbelow : s.witnesses.length < k) :
    Asks expired (s.upTo k) q :=
  ⟨h.searching, by simp [limitReached, Search.upTo, hbelow], h.in_time, h.question_eq, h.hasHole_eq⟩

theorem fail_upTo (k : Nat) (s : Search) (failure : Failure) :
    (s.upTo k).fail failure = ((s.fail failure).1.upTo k, (s.fail failure).2) := by
  unfold fail
  split <;> rfl

/-- Below the limit a call does the same with it as without. -/
theorem next_upTo (h : Asks expired s q) {k : Nat} (hbelow : s.witnesses.length < k) (solver : Solver) :
    (s.upTo k).next solver expired =
      ((s.next solver expired).1.upTo k, (s.next solver expired).2) := by
  rw [h.next_eq, (h.upTo hbelow).next_eq]
  cases solver q with
  | unsat => rfl
  | unknown reason => rfl
  | sat m =>
    -- A report depends on the firewalls alone.
    have hread : (s.upTo k).inconsistency m = s.inconsistency m := rfl
    simp only [hread]
    cases s.inconsistency m with
    | error failure => exact fail_upTo k s.asked failure
    | ok i => rfl

end Asks

/-! ## Draining -/

section Drain

variable {solver : Nat → Solver} {expired : Nat → Bool} {fuel : Nat} {s t : Search}

theorem drainFuel_of_found {i : Inconsistency}
    (h : s.next (solver s.queries) (expired s.queries) = (t, .found i)) :
    drainFuel solver expired (fuel + 1) s = (t, .found i) :: drainFuel solver expired fuel t := by
  simp [drainFuel, h]

theorem drainFuel_of_ended {step : Step}
    (h : s.next (solver s.queries) (expired s.queries) = (t, step)) (hstep : step.inconsistency? = none) :
    drainFuel solver expired (fuel + 1) s = [(t, step)] := by
  cases step with
  | found i => cases hstep
  | _ => simp [drainFuel, h]

end Drain

/-- What draining the search with a limit does, if without it the search finds the given
inconsistencies: it finds as many of them as the limit leaves room for, and is exhausted if there is
room for one more. -/
structure CutShort (k : Nat) (s : Search) (found : List Inconsistency) (trace : Trace) : Prop where
  steps_eq : trace.map (·.2) = (found.take (k - s.witnesses.length)).map .found ++
    [if s.witnesses.length + found.length < k then .exhausted else .limitReached]
  phase_eq : (trace.last (s.upTo k)).phase = .done
  exhausted_eq : (trace.last (s.upTo k)).exhausted = decide (s.witnesses.length + found.length < k)

theorem next_of_limitReached {s : Search} (hsearching : s.phase = .searching)
    (hreached : s.limitReached = true) (solver : Solver) (expired : Bool) :
    s.next solver expired = (s.finish, .limitReached) := by
  have hgoes : ¬s.phase = .done := by simp [hsearching]
  rw [next, if_neg hgoes, if_pos hreached]

section CutShort

variable {k : Nat} {s : Search} {found : List Inconsistency} {trace : Trace}

/-- A search that has reached its limit finds nothing more, whatever there is. -/
theorem CutShort.of_reached (hfresh : s.exhausted = false) (hreached : s.witnesses.length = k)
    (found : List Inconsistency) : CutShort k s found [((s.upTo k).finish, .limitReached)] := by
  subst hreached
  exact ⟨by simp, rfl, by simpa [finish, upTo] using hfresh⟩

/-- A search that has not reached its limit may find that there is nothing. -/
theorem CutShort.of_exhausted (hbelow : s.witnesses.length < k) :
    CutShort k s [] [(upTo k { s.asked.finish with exhausted := true }, .exhausted)] :=
  ⟨by simp [hbelow], rfl, by simpa [upTo] using hbelow⟩

/-- A search that has not reached its limit has room for one more. -/
theorem CutShort.cons {i : Inconsistency} (hbelow : s.witnesses.length < k)
    (h : CutShort k { s.asked with witnesses := s.witnesses ++ [i.packet] } found trace) :
    CutShort k s (i :: found)
      ((upTo k { s.asked with witnesses := s.witnesses ++ [i.packet] }, .found i) :: trace) := by
  obtain ⟨hsteps, hphase, hex⟩ := h
  simp only [List.length_append, List.length_singleton] at hsteps hex
  have hroom : k - s.witnesses.length = k - (s.witnesses.length + 1) + 1 := by omega
  have hcount : s.witnesses.length + (i :: found).length = s.witnesses.length + 1 + found.length := by
    rw [List.length_cons]
    omega
  refine ⟨?_, ?_, ?_⟩
  · rw [hroom, hcount, List.take_succ_cons, List.map_cons, hsteps]
    rfl
  · rw [Trace.last_cons]
    exact hphase
  · rw [Trace.last_cons, hcount]
    exact hex

end CutShort

/-- With a step for every datagram of the disagreement that is not used up, and one more, draining the
search with the limit is draining it without, cut short. -/
theorem drainFuel_upTo {solver : Nat → Solver} (hsolver : ∀ n, (solver n).SoundOnPackets)
    (hdecisive : ∀ n, (solver n).Decisive) {k fuel : Nat} {s : Search} (hs : Parted s)
    (hsearching : s.phase = .searching) (hlimit : s.limit = none) (hfresh : s.exhausted = false)
    (hfuel : (s.firewalls.1.disagreement s.firewalls.2).ncard < s.witnesses.length + fuel)
    (hk : s.witnesses.length ≤ k) :
    ∃ found : List Inconsistency,
      (drainFuel solver (fun _ => false) fuel s).map (·.2) = found.map .found ++ [.exhausted] ∧
        CutShort k s found (drainFuel solver (fun _ => false) fuel (s.upTo k)) := by
  induction fuel generalizing s with
  | zero =>
    have hle := hs.length_le
    omega
  | succ fuel ih =>
    rcases Nat.eq_or_lt_of_le hk with hreached | hbelow
    · -- The search without the limit goes on, this one does not.
      obtain ⟨found, hsteps, -, -⟩ := drainFuel_ends hsolver hdecisive hs hsearching hlimit hfuel
      have hlimitReached : (s.upTo k).limitReached = true := by simp [limitReached, upTo, hreached]
      have hcut : drainFuel solver (fun _ => false) (fuel + 1) (s.upTo k) =
          [((s.upTo k).finish, .limitReached)] :=
        drainFuel_of_ended (next_of_limitReached (s := s.upTo k) hsearching hlimitReached _ _) rfl
      refine ⟨found, hsteps, ?_⟩
      rw [hcut]
      exact .of_reached hfresh hreached found
    obtain ⟨q, hask⟩ := hs.grounded.exists_asks hsearching (by simp [limitReached, hlimit]) rfl
    have hsame := next_upTo hask hbelow (solver s.queries)
    rcases next_of_sound (hsolver s.queries) (hdecisive s.queries) hs.grounded hsearching hlimit with
      hnext | ⟨i, hnext⟩
    · rw [hnext] at hsame
      rw [drainFuel_of_ended hnext rfl, drainFuel_of_ended hsame rfl]
      exact ⟨[], rfl, .of_exhausted hbelow⟩
    · have hparted := hs.next (hsolver s.queries) false
      rw [hnext] at hsame hparted
      have hlength : (s.witnesses ++ [i.packet]).length = s.witnesses.length + 1 := List.length_append
      have hrest : (s.firewalls.1.disagreement s.firewalls.2).ncard <
          (s.witnesses ++ [i.packet]).length + fuel := by omega
      have hroom : (s.witnesses ++ [i.packet]).length ≤ k := by omega
      obtain ⟨found, hsteps, hcut⟩ := ih hparted hsearching hlimit hfresh hrest hroom
      rw [drainFuel_of_found hnext, drainFuel_of_found hsame]
      refine ⟨i :: found, ?_, hcut.cons hbelow⟩
      rw [List.map_cons, hsteps]
      rfl

theorem inconsistencies_of_steps {trace : Trace} {found : List Inconsistency} {last : Step}
    (h : trace.map (·.2) = found.map .found ++ [last]) (hlast : last.inconsistency? = none) :
    trace.inconsistencies = found := by
  have hfound : ∀ i, (Step.found i).inconsistency? = some i := fun _ => rfl
  rw [Trace.inconsistencies_eq, h, List.filterMap_append, List.filterMap_map]
  simp [hfound, hlast]

theorem failure?_of_steps {trace : Trace} {found : List Inconsistency} {last : Step}
    (h : trace.map (·.2) = found.map .found ++ [last]) : trace.failure? = last.failure? := by
  have hfound : (found.map Step.found).findSome? Step.failure? = none := by
    rw [List.findSome?_eq_none_iff]
    intro step hstep
    obtain ⟨i, -, rfl⟩ := List.mem_map.mp hstep
    rfl
  have hsteps : trace.failure? = (trace.map (·.2)).findSome? Step.failure? := by
    rw [List.findSome?_map]
    rfl
  rw [hsteps, h, List.findSome?_append, hfound]
  simp

section CutShort

variable {k : Nat} {s : Search} {found : List Inconsistency} {trace : Trace}

theorem CutShort.inconsistencies_eq (h : CutShort k s found trace) :
    trace.inconsistencies = found.take (k - s.witnesses.length) :=
  inconsistencies_of_steps h.steps_eq (by split <;> rfl)

theorem CutShort.failure?_eq (h : CutShort k s found trace) : trace.failure? = none :=
  (failure?_of_steps h.steps_eq).trans (by split <;> rfl)

end CutShort

theorem start_natCast (first second : Firewall) (k : Nat) :
    start first second (some k) = .ok (upTo k { firewalls := (first, second) }) := by
  refine start_of_nonneg first second ?_
  rintro n ⟨⟩
  exact Int.natCast_nonneg k

theorem drain_upTo (first second : Firewall) {solver : Nat → Solver}
    (hsolver : ∀ n, (solver n).SoundOnPackets) (hdecisive : ∀ n, (solver n).Decisive) (k : Nat) :
    ∃ found : List Inconsistency,
      (drain solver (fun _ => false) { firewalls := (first, second) }).map (·.2) =
          found.map .found ++ [.exhausted] ∧
        CutShort k { firewalls := (first, second) } found
          (drain solver (fun _ => false) (upTo k { firewalls := (first, second) })) := by
  have hstart : start first second none = .ok { firewalls := (first, second) } := rfl
  have hfuel : (first.disagreement second).ncard < 0 + maxSteps := by
    rw [Nat.zero_add]
    exact Nat.lt_succ_of_le (first.ncard_disagreement_le second)
  exact drainFuel_upTo hsolver hdecisive (parted_of_start hstart) rfl rfl rfl hfuel (Nat.zero_le k)

/-- A search with a limit finds the first inconsistencies of the search without it, as many as the limit
allows, in the same order. It ends without a failure, and is exhausted exactly if there are fewer
inconsistencies than the limit allows. A solver may be asked by the number of the query; in both
searches the same number has the same solver. -/
theorem limit_truncates (first second : Firewall) {solver : Nat → Solver}
    (hsolver : ∀ n, (solver n).SoundOnPackets) (hdecisive : ∀ n, (solver n).Decisive) (k : Nat) :
    ∃ free limited : Search, start first second none = .ok free ∧
      start first second (some k) = .ok limited ∧
      let all := free.drain solver fun _ => false
      let part := limited.drain solver fun _ => false
      all.map (·.2) = all.inconsistencies.map .found ++ [.exhausted] ∧
        part.inconsistencies = all.inconsistencies.take k ∧
        part.failure? = none ∧ (part.last limited).phase = .done ∧
        ((part.last limited).exhausted = true ↔ all.inconsistencies.length < k) := by
  obtain ⟨found, hsteps, hcut⟩ := drain_upTo first second hsolver hdecisive k
  have hfound : (drain solver (fun _ => false) { firewalls := (first, second) }).inconsistencies =
      found := inconsistencies_of_steps hsteps rfl
  have hex := hcut.exhausted_eq
  simp only [List.length_nil, Nat.zero_add] at hex
  refine ⟨_, _, rfl, start_natCast first second k, ?_, ?_, hcut.failure?_eq, hcut.phase_eq, ?_⟩
  · rw [hfound]
    exact hsteps
  · rw [hfound]
    exact hcut.inconsistencies_eq
  · rw [hfound, hex, decide_eq_true_iff]

/-- With room for two, both classes of questions to name servers are found, and with that the search
ends: it is not exhausted, although there is nothing else. -/
theorem a_limit_as_large_as_the_disagreement :
    ∃ free limited : Search, start names {} none = .ok free ∧ start names {} (some 2) = .ok limited ∧
      Solver.exact.SoundOnPackets ∧ Solver.exact.Decisive ∧
      let all := free.drain (fun _ => .exact) fun _ => false
      let part := limited.drain (fun _ => .exact) fun _ => false
      all.inconsistencies.length = 2 ∧ part.inconsistencies = all.inconsistencies.take 2 ∧
        (part.last limited).exhausted = false := by
  obtain ⟨free, limited, hfree, hlimited, -, hpart, -, -, hex⟩ :=
    limit_truncates names {} (fun _ => exact_correct.soundOnPackets) (fun _ => exact_decisive) 2
  have hcount : (free.drain (fun _ => .exact) fun _ => false).inconsistencies.length = 2 := by
    rw [eq_of_start hfree]
    decide +kernel
  refine ⟨free, limited, hfree, hlimited, exact_correct.soundOnPackets, exact_decisive, hcount, hpart, ?_⟩
  rw [hcount] at hex
  rw [Bool.eq_false_iff]
  intro htrue
  exact Nat.lt_irrefl 2 (hex.mp htrue)

/-! ## What a search with a limit shows -/

/-- What inconsistencies found and whether the search is exhausted say about the firewalls, if room was
for so many. -/
structure Verdict (first second : Firewall) (k : Nat) (found : List Inconsistency) (exhausted : Bool) :
    Prop where
  length_le : found.length ≤ k
  exhausted_iff : exhausted = true ↔ found.length < k
  grounded : ∀ i ∈ found, i.packet.Covers i.packet.datagram
  sound : ∀ i ∈ found, ∀ d, i.packet.Covers d → Firewall.Differ first second d
  complete : exhausted = true → ∀ d, Firewall.Differ first second d → ∃ i ∈ found, i.packet.Covers d

/-- With solvers that are correct on packets, a search with a limit ends without a failure and shows
whether the firewalls differ. -/
theorem drain_within_limit (first second : Firewall) (k : Nat) {solver : Nat → Solver}
    (hsolver : ∀ n, (solver n).CorrectOnPackets) (hdecisive : ∀ n, (solver n).Decisive) :
    let s := upTo k { firewalls := (first, second) }
    let trace := s.drain solver fun _ => false
    trace.failure? = none ∧
      Verdict first second k trace.inconsistencies (trace.last s).exhausted := by
  intro s trace
  obtain ⟨found, -, hcut⟩ :=
    drain_upTo first second (fun n => (hsolver n).toSoundOnPackets) hdecisive k
  have hfound : trace.inconsistencies = found.take k := hcut.inconsistencies_eq
  have hex : (trace.last s).exhausted = decide (found.length < k) := by
    rw [hcut.exhausted_eq]
    simp
  -- What the witnesses stand for is known of runs.
  obtain ⟨calls, hrun, hcalls⟩ := drainFuel_eq_run solver (fun _ => false) maxSteps s
  have htrace : trace = s.run calls := hrun
  have hlast : trace.last s = s.after calls := congrArg (Trace.last s) hrun
  have hcorrect : ∀ c ∈ calls, c.solver.CorrectOnPackets := by
    intro c hc
    obtain ⟨n, rfl⟩ := hcalls c hc
    exact hsolver n
  have hstart := start_natCast first second k
  refine ⟨hcut.failure?_eq, ?_, ?_, ?_, ?_, ?_⟩
  · rw [hfound]
    exact List.length_take_le k found
  · rw [hex, hfound, decide_eq_true_iff, List.length_take]
    omega
  · intro i hi
    rw [htrace] at hi
    exact (eq_report_of_mem (grounded_of_start hstart) (fun c hc => (hcorrect c hc).fits) hi).2.2
  · intro i hi d hd
    rw [htrace] at hi
    exact differ_of_covers hstart (fun c hc => (hcorrect c hc).toSoundOnPackets) hi hd
  · intro hexhausted d hd
    rw [hlast] at hexhausted
    have hcomplete := (covering_after hstart hcorrect).complete hexhausted d
    rw [firewalls_after hstart, witnesses_after hstart, ← htrace] at hcomplete
    obtain ⟨w, hw, hcovers⟩ := hcomplete hd
    obtain ⟨i, hi, rfl⟩ := List.mem_map.mp hw
    exact ⟨i, hi, hcovers⟩

end FirewallPolicy.Search
