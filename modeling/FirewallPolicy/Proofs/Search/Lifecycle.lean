import FirewallPolicy.Proofs.Search.Coverage

/-!
The life of a search: searching, then done.

Calls may come from anywhere; an iterator over the search only makes calls. The solver may answer as
it likes, as long as its models are models of packets. What a call does is then settled by the answer
it gets, if it asks at all (`Search.answer?`): `Search.Turns` has one case for each way out, and
`next_turns` says that there is no other. A call fails exactly if its answer is of no use
(`Search.Unusable`): the solver does not know, or both firewalls decide the packet of its model alike.

What is kept from call to call are the accounts of a search (`Search.Accounts`): the limit is not
passed, only a denial exhausts the search, and every query but one that ended the search has brought
a witness.

Proved: `lifecycle_after_calls`, all of this at every point of a run, and of whatever call is made next.
-/

namespace FirewallPolicy.Search

/-! ## Answers -/

def answer? (s : Search) (c : Call) : Option Answer :=
  if s.phase = .done ∨ s.limitReached = true ∨ c.expired = true then none
  else match s.question with
    | .error _ => none
    | .ok q => if q.hasHole then none else some (c.solver q)

def answers (s : Search) : List Call → List Answer
  | [] => []
  | c :: calls => (s.answer? c).toList ++ answers (s.next c.solver c.expired).1 calls

theorem answer?_of_done {s : Search} (h : s.phase = .done) (c : Call) : s.answer? c = none := by
  simp [answer?, h]

theorem answer?_of_limitReached {s : Search} (h : s.limitReached = true) (c : Call) :
    s.answer? c = none := by
  simp [answer?, h]

theorem answer?_of_expired (s : Search) {c : Call} (h : c.expired = true) : s.answer? c = none := by
  simp [answer?, h]

theorem Asks.answer?_eq {s : Search} {c : Call} {q : Formula} (h : Asks c.expired s q) :
    s.answer? c = some (c.solver q) := by
  simp [answer?, h.searching, h.below_limit, h.in_time, h.question_eq, h.hasHole_eq]

/-! ## What a call does with its answer -/

/-- The answer is of no use, for the reason that the failure gives. -/
inductive Unusable (s : Search) : Answer → Failure → Prop
  | unknown (reason : String) : Unusable s (.unknown reason) (.unknown reason)
  /-- Both firewalls decide alike the packet of the model, with zero for its open fields. -/
  | notSeparating {m : Model} {p : Packet} : m.packet = .ok p →
      (s.firewalls.1.Admits m.assignment.datagram ↔ s.firewalls.2.Admits m.assignment.datagram) →
      Unusable s (.sat m) (.notSeparating p)

/-- What a call does, by the answer it gets. -/
inductive Turns (c : Call) (s : Search) : Option Answer → Search × Step → Prop
  | ended : s.phase = .done → Turns c s none (s, .over)
  | limitReached : s.phase = .searching → s.limitReached = true →
      Turns c s none (s.finish, .limitReached)
  | deadlinePassed : s.phase = .searching → c.expired = true →
      Turns c s none (s.finish, .deadlinePassed)
  | exhausted : s.phase = .searching →
      Turns c s (some .unsat) ({ s.asked.finish with exhausted := true }, .exhausted)
  | failed {a : Answer} {failure : Failure} : s.phase = .searching → s.Unusable a failure →
      Turns c s (some a) (s.asked.finish, .failed failure)
  | found {m : Model} {p : Packet} : s.phase = .searching → s.limitReached = false →
      m.packet = .ok p → Firewall.Differ s.firewalls.1 s.firewalls.2 m.assignment.datagram →
      Turns c s (some (.sat m))
        ({ s.asked with witnesses := s.witnesses ++ [p] }, .found (s.report p))

/-- A model of packets has a packet, and its report can be read exactly if the firewalls differ. -/
theorem inconsistency_of_packets (s : Search) {m : Model} (hm : m.OfPackets) :
    ∃ p, m.packet = .ok p ∧
      ((s.firewalls.1.Admits m.assignment.datagram ↔ s.firewalls.2.Admits m.assignment.datagram) ∧
          s.inconsistency m = .error (.notSeparating p) ∨
        Firewall.Differ s.firewalls.1 s.firewalls.2 m.assignment.datagram ∧
          s.inconsistency m = .ok (s.report p)) := by
  obtain ⟨p, hp, hd, -⟩ := Model.packet_eq hm
  refine ⟨p, hp, ?_⟩
  rw [inconsistency_eq s hm hp hd, ← hd]
  by_cases halike : s.firewalls.1.Admits p.datagram ↔ s.firewalls.2.Admits p.datagram
  · exact Or.inl ⟨halike, if_pos (decide_eq_decide.mpr halike)⟩
  · exact Or.inr ⟨halike, if_neg fun h => halike (decide_eq_decide.mp h)⟩

theorem next_turns {s : Search} (hs : s.Grounded) {c : Call} (hc : c.solver.FitsPackets) :
    Turns c s (s.answer? c) (s.next c.solver c.expired) := by
  have hmove := next_moves c.solver c.expired s
  generalize s.next c.solver c.expired = out at hmove
  cases hmove with
  | ended hdone =>
    rw [answer?_of_done hdone]
    exact .ended hdone
  | limitReached hsearching hlimit =>
    rw [answer?_of_limitReached hlimit]
    exact .limitReached hsearching hlimit
  | deadlinePassed hsearching _ hexpired =>
    rw [answer?_of_expired s hexpired]
    exact .deadlinePassed hsearching hexpired
  | refused hsearching hlimit hexpired hnot =>
    obtain ⟨q, hask⟩ := hs.exists_asks hsearching hlimit hexpired
    exact absurd hask (hnot q)
  | unknown hask hunknown =>
    rw [hask.answer?_eq, hunknown]
    exact .failed hask.searching (.unknown _)
  | exhausted hask hunsat =>
    rw [hask.answer?_eq, hunsat]
    exact .exhausted hask.searching
  | unread hask hsat hread =>
    obtain ⟨p, hp, ⟨halike, hfail⟩ | ⟨-, hok⟩⟩ :=
      s.inconsistency_of_packets (hc _ _ _ (hask.means hs) hsat)
    · rw [hfail] at hread
      cases hread
      rw [hask.answer?_eq, hsat]
      exact .failed hask.searching (.notSeparating hp halike)
    · rw [hok] at hread
      cases hread
  | found hask hsat hread =>
    obtain ⟨p, hp, ⟨-, hfail⟩ | ⟨hdiffer, hok⟩⟩ :=
      s.inconsistency_of_packets (hc _ _ _ (hask.means hs) hsat)
    · rw [hfail] at hread
      cases hread
    · rw [hok] at hread
      cases hread
      rw [hask.answer?_eq, hsat]
      exact .found hask.searching hask.below_limit hp hdiffer

theorem Unusable.unique {s : Search} {a : Answer} {failure failure' : Failure}
    (h : s.Unusable a failure) (h' : s.Unusable a failure') : failure = failure' := by
  cases h with
  | unknown reason =>
    cases h'
    rfl
  | notSeparating hp _ =>
    cases h' with
    | notSeparating hp' _ =>
      rw [hp] at hp'
      cases hp'
      rfl

section Turns

variable {c : Call} {s : Search} {a : Option Answer} {out : Search × Step}

/-- A call fails exactly if it gets an answer of no use. -/
theorem Turns.failed_iff (h : Turns c s a out) (failure : Failure) :
    out.2 = .failed failure ↔ ∃ a', a = some a' ∧ s.Unusable a' failure := by
  constructor
  · intro hfailed
    cases h with
    | failed _ hunusable =>
      cases hfailed
      exact ⟨_, rfl, hunusable⟩
    | _ => cases hfailed
  · rintro ⟨a', rfl, hunusable⟩
    cases h with
    | exhausted => cases hunusable
    | failed _ hunusable' => rw [hunusable'.unique hunusable]
    | found _ _ _ hdiffer =>
      cases hunusable with
      | notSeparating _ halike => exact absurd halike hdiffer

/-- A call that fails counts its query and ends the search, and changes nothing else. -/
theorem Turns.eq_of_failed (h : Turns c s a out) {failure : Failure}
    (hfailed : out.2 = .failed failure) : out.1 = s.asked.finish := by
  cases h with
  | failed => rfl
  | _ => cases hfailed

end Turns

/-! ## Accounts -/

/-- The step asked, and its answer ended the search. -/
def Step.closes : Step → Bool
  | exhausted => true
  | failed _ => true
  | _ => false

/-- The accounts of a search with a limit: the answers that its calls got, and whether one of them
closed it. -/
structure Accounts (limit : Option Int) (answers : List Answer) (closed : Bool) (s : Search) :
    Prop where
  grounded : s.Grounded
  limit_eq : s.limit = limit
  length_le : ∀ n, limit = some n → (s.witnesses.length : Int) ≤ n
  of_exhausted : s.exhausted = true → s.phase = .done ∧ answers.getLast? = some .unsat
  of_closed : closed = true → s.phase = .done
  queries_eq : s.queries = answers.length
  queries_eq_add : s.queries = s.witnesses.length + closed.toNat

section Accounts

variable {limit : Option Int} {answers : List Answer} {closed : Bool} {s : Search}

theorem Accounts.not_exhausted (h : Accounts limit answers closed s) (hs : s.phase = .searching) :
    s.exhausted = false := by
  cases hex : s.exhausted with
  | false => rfl
  | true =>
    have hdone := (h.of_exhausted hex).1
    rw [hs] at hdone
    cases hdone

theorem Accounts.not_closed (h : Accounts limit answers closed s) (hs : s.phase = .searching) :
    closed = false := by
  cases hclosed : closed with
  | false => rfl
  | true =>
    have hdone := h.of_closed hclosed
    rw [hs] at hdone
    cases hdone

theorem Accounts.finish (h : Accounts limit answers closed s) : Accounts limit answers closed s.finish :=
  ⟨h.grounded, h.limit_eq, h.length_le, fun hex => ⟨rfl, (h.of_exhausted hex).2⟩, fun _ => rfl,
    h.queries_eq, h.queries_eq_add⟩

theorem Accounts.turn (h : Accounts limit answers closed s) {c : Call} {a : Option Answer}
    {out : Search × Step} (hturn : Turns c s a out) (hgrounded : out.1.Grounded) :
    Accounts limit (answers ++ a.toList) (closed || out.2.closes) out.1 := by
  have hqueries := h.queries_eq
  have hadd := h.queries_eq_add
  cases hturn with
  | ended => simpa [Step.closes] using h
  | limitReached => simpa [Step.closes] using h.finish
  | deadlinePassed => simpa [Step.closes] using h.finish
  | exhausted hs =>
    have hopen := h.not_closed hs
    subst hopen
    refine ⟨hgrounded, h.limit_eq, h.length_le, fun _ => ⟨rfl, by simp⟩, fun _ => rfl, ?_, ?_⟩
    · simp [asked, Search.finish, hqueries]
    · simpa [asked, Search.finish, Step.closes] using hadd
  | failed hs _ =>
    have hopen := h.not_closed hs
    have hex := h.not_exhausted hs
    subst hopen
    refine ⟨hgrounded, h.limit_eq, h.length_le, ?_, fun _ => rfl, ?_, ?_⟩
    · simp [asked, Search.finish, hex]
    · simp [asked, Search.finish, hqueries]
    · simpa [asked, Search.finish, Step.closes] using hadd
  | found hs hlimit _ _ =>
    have hopen := h.not_closed hs
    have hex := h.not_exhausted hs
    subst hopen
    refine ⟨hgrounded, h.limit_eq, ?_, ?_, ?_, ?_, ?_⟩
    · intro n hn
      simp only [Search.limitReached, h.limit_eq, hn, Option.any_some, decide_eq_false_iff_not] at hlimit
      simp only [List.length_append, List.length_singleton]
      omega
    · simp [asked, hex]
    · simp [Step.closes]
    · simp [asked, hqueries]
    · simpa [asked, Step.closes] using hadd

/-- A run keeps the accounts. -/
theorem Accounts.after (h : Accounts limit answers closed s) {calls : List Call}
    (hcalls : ∀ c ∈ calls, c.solver.FitsPackets) :
    Accounts limit (answers ++ s.answers calls) (closed || (s.run calls).any (·.2.closes))
      (s.after calls) := by
  induction calls generalizing s answers closed with
  | nil => simpa [Search.answers, run] using h
  | cons c calls ih =>
    have hc := hcalls c (by simp)
    have hturn := h.turn (next_turns h.grounded hc) (h.grounded.next hc c.expired)
    have hrest := ih hturn fun c' hc' => hcalls c' (by simp [hc'])
    rw [List.append_assoc, Bool.or_assoc] at hrest
    rw [after_cons]
    exact hrest

end Accounts

theorem accounts_of_start {first second : Firewall} {limit : Option Int} {s : Search}
    (h : start first second limit = .ok s) : Accounts limit [] false s := by
  have hlimit : ∀ n, limit = some n → 0 ≤ n := by
    rintro n rfl
    by_contra hneg
    simp [start, show n < 0 by omega] at h
  have hgrounded := grounded_of_start h
  rw [eq_of_start h] at hgrounded ⊢
  exact ⟨hgrounded, rfl, by simpa using hlimit, by simp, by simp, rfl, rfl⟩

/-! ## The laws -/

/-- A search is exhausted only if it is done and the last query was denied. Once it is done, a call
finds nothing, asks nothing and changes nothing. The witnesses are the packets reported so far, in
their order, and never more than the limit allows; a call adds the packet that it reports. A call
fails exactly if its answer is of no use, and then leaves the witnesses as they are and ends the
search without exhausting it. Every query has brought a witness, except one that ended the search. -/
theorem lifecycle_after_calls {first second : Firewall} {limit : Option Int} {s : Search}
    (hstart : start first second limit = .ok s) {calls : List Call}
    (hcalls : ∀ c ∈ calls, c.solver.FitsPackets) {c : Call} (hc : c.solver.FitsPackets) :
    let now := s.after calls
    let stepped := now.next c.solver c.expired
    (now.exhausted = true → now.phase = .done ∧ (s.answers calls).getLast? = some .unsat) ∧
      (now.phase = .done → stepped = (now, .over) ∧ now.answer? c = none) ∧
      now.witnesses = (s.run calls).inconsistencies.map (·.packet) ∧
      stepped.1.witnesses = now.witnesses ++ stepped.2.inconsistency?.toList.map (·.packet) ∧
      (∀ n, limit = some n → (now.witnesses.length : Int) ≤ n) ∧
      (∀ failure, stepped.2 = .failed failure ↔
        ∃ a, now.answer? c = some a ∧ now.Unusable a failure) ∧
      (∀ failure, stepped.2 = .failed failure →
        stepped.1.witnesses = now.witnesses ∧ stepped.1.exhausted = now.exhausted ∧
          stepped.1.phase = .done) ∧
      now.queries = (s.answers calls).length ∧
      now.queries = now.witnesses.length + ((s.run calls).any (·.2.closes)).toNat := by
  intro now stepped
  have haccounts : Accounts limit (s.answers calls) ((s.run calls).any (·.2.closes)) now := by
    simpa using (accounts_of_start hstart).after hcalls
  have hturn : Turns c now (now.answer? c) stepped := next_turns haccounts.grounded hc
  refine ⟨haccounts.of_exhausted, ?_, witnesses_after hstart, ?_, haccounts.length_le,
    hturn.failed_iff, ?_, haccounts.queries_eq, haccounts.queries_eq_add⟩
  · intro hdone
    exact ⟨if_pos hdone, answer?_of_done hdone c⟩
  · exact (next_moves c.solver c.expired now).witnesses_eq
  · intro failure hfailed
    rw [hturn.eq_of_failed hfailed]
    exact ⟨rfl, rfl, rfl⟩

def lost : Solver := fun _ => .unknown "timeout"

/-- After one query has found the web requests, a solver that gives up ends the search. They stay
found, and the search is no more exhausted than it was. -/
theorem giving_up_ends_the_search :
    ∃ s, start web {} (some 3) = .ok s ∧ Solver.exact.FitsPackets ∧ lost.FitsPackets ∧
      let now := s.after [⟨.exact, false⟩]
      let stepped := now.next lost false
      now.witnesses = [{ destinationPort := some 80, protocol := some 6 }] ∧ now.queries = 1 ∧
        stepped.2 = .failed (.unknown "timeout") ∧ stepped.1.witnesses = now.witnesses ∧
        stepped.1.phase = .done ∧ stepped.1.exhausted = now.exhausted := by
  have hstart : start web {} (some 3) = .ok { firewalls := (web, {}), limit := some 3 } := rfl
  have hexact : Solver.exact.FitsPackets := exact_correct.fitsPackets
  have hlost : lost.FitsPackets := by
    intro q P m _ hsat
    cases hsat
  have hcalls : ∀ c ∈ [Call.mk .exact false], c.solver.FitsPackets := by simpa using hexact
  obtain ⟨-, -, -, -, -, hfailed, hkept, -, hqueries⟩ :=
    lifecycle_after_calls hstart hcalls (c := ⟨lost, false⟩) hlost
  have hfound : (after { firewalls := (web, {}), limit := some 3 } [⟨.exact, false⟩]).witnesses =
      [{ destinationPort := some 80, protocol := some 6 }] := by decide +kernel
  have hasked : (after { firewalls := (web, {}), limit := some 3 } [⟨.exact, false⟩]).answer?
      ⟨lost, false⟩ = some (.unknown "timeout") := by decide +kernel
  have hfail := (hfailed _).mpr ⟨_, hasked, .unknown _⟩
  obtain ⟨hwitnesses, hex, hdone⟩ := hkept _ hfail
  refine ⟨_, hstart, hexact, hlost, hfound, ?_, hfail, hwitnesses, hdone, hex⟩
  rw [hqueries, hfound]
  decide +kernel

end FirewallPolicy.Search
