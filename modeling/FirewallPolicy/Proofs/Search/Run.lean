import FirewallPolicy.Proofs.Reading
import FirewallPolicy.Search

/-!
Runs of the search.

A run is any number of calls of `Search.next`, whoever makes them; each call may have a solver and a
clock of its own (`Search.Call`). `Search.Moves` says what one call can do, one case for each way out
of it, and `next_moves` that it can do nothing else.

What a call does is put together from two things, each described once:
- `question_means`: if every witness stands for some datagram (`Search.Grounded`), the question can be
  asked, and means that the firewalls disagree on a datagram that no witness stands for
  (`Search.Open`);
- `inconsistency_eq`: from a model of packets the report of its packet is read (`Search.report`),
  unless both firewalls decide the packet alike.

Proved of calls: `report_of_found`, a call with any solver of packets reports a true difference, and
so keeps the witnesses grounded (`Grounded.next`).

Proved of runs: `run_invariant` (what every call keeps, a run keeps), `eq_report_of_mem` (what a run
reports, one of its calls reported, and it is a true difference), and `after_witnesses` (the
witnesses are the packets reported, in their order).
-/

namespace FirewallPolicy

def Firewall.Differ (first second : Firewall) (d : Datagram) : Prop :=
  ¬(first.Admits d ↔ second.Admits d)

namespace Search

/-- The firewalls disagree on the datagram, and no witness stands for it. -/
def Open (s : Search) (d : Datagram) : Prop :=
  Firewall.Differ s.firewalls.1 s.firewalls.2 d ∧ ¬∃ w ∈ s.witnesses, w.Covers d

/-- Every witness stands for the datagram that has zero for its open fields. -/
def Grounded (s : Search) : Prop := ∀ w ∈ s.witnesses, w.Covers w.datagram

/-- The report of a packet: the decisions on the datagram that has zero for its open fields, and the
rules that match it. -/
def report (s : Search) (p : Packet) : Inconsistency where
  packet := p
  firewalls := s.firewalls
  allowed := (decide (s.firewalls.1.Admits p.datagram), decide (s.firewalls.2.Admits p.datagram))
  rules := (s.firewalls.1.matching p.datagram, s.firewalls.2.matching p.datagram)

/-! ## The question and the report -/

theorem question_means {s : Search} (h : s.Grounded) :
    ∃ q, s.question = .ok q ∧ q.Means s.Open := by
  obtain ⟨first, hf, hmf⟩ := s.firewalls.1.admits_means
  obtain ⟨second, hs, hms⟩ := s.firewalls.2.admits_means
  obtain ⟨excluded, he, hme⟩ := Formula.mapM_means fun w hw => Packet.pattern_means (h w hw)
  refine ⟨.conjunction [.not (.iff first second), .not (.disjunction excluded)], ?_, ?_⟩
  · simp [question, hf, hs, he]
  · have hdiffer := (hmf.iff hms).not
    have hexcluded := (Formula.Means.disjunction hme).not
    refine (Formula.Means.conjunction (.cons hdiffer (.cons hexcluded .nil))).congr fun d => ?_
    simp [Open, Firewall.Differ]

theorem inconsistency_eq (s : Search) {m : Model} (hm : m.OfPackets) {p : Packet}
    (hp : m.packet = .ok p) (hd : p.datagram = m.assignment.datagram) :
    s.inconsistency m =
      if (s.report p).allowed.1 = (s.report p).allowed.2 then .error (.notSeparating p)
      else .ok (s.report p) := by
  have hfits := Model.fitsFields_assignment hm
  obtain ⟨m₁, h₁, hs₁⟩ := Model.admitted_eq hfits s.firewalls.1
  obtain ⟨m₂, h₂, hs₂⟩ := Model.admitted_eq (hs₁ ▸ hfits) s.firewalls.2
  obtain ⟨m₃, h₃, hs₃⟩ := Model.matchingRules_eq (m := m₂) (hs₂ ▸ hs₁ ▸ hfits) s.firewalls.1.rules
  obtain ⟨m₄, h₄, -⟩ :=
    Model.matchingRules_eq (m := m₃) (hs₃ ▸ hs₂ ▸ hs₁ ▸ hfits) s.firewalls.2.rules
  rw [hs₁, ← hd] at h₂
  rw [hs₂, hs₁, ← hd] at h₃
  rw [hs₃, hs₂, hs₁, ← hd] at h₄
  rw [← hd] at h₁
  by_cases halike : (s.report p).allowed.1 = (s.report p).allowed.2
  · rw [if_pos halike]
    simp only [report] at halike
    simp only [inconsistency, hp, h₁, h₂, if_pos halike, Failure.ofInvalid, ok_bind]
    rfl
  · rw [if_neg halike]
    simp only [report] at halike
    simp only [inconsistency, hp, h₁, h₂, h₃, h₄, if_neg halike, Failure.ofInvalid, ok_bind]
    rfl

/-- What is read off a model of packets is the report of a packet that stands for the datagrams with
the fields bound, one of them its own, and on which the firewalls differ. -/
theorem of_inconsistency_eq_ok {s : Search} {m : Model} (hm : m.OfPackets) {i : Inconsistency}
    (h : s.inconsistency m = .ok i) :
    i = s.report i.packet ∧ i.allowed.1 ≠ i.allowed.2 ∧ i.packet.Covers i.packet.datagram ∧
      ∀ d, i.packet.Covers d ↔ ∀ u ∈ Field.all, ∀ x, m.get? u = some x → d.assignment u = x := by
  obtain ⟨p, hp, hd, hcovers⟩ := Model.packet_eq hm
  rw [inconsistency_eq s hm hp hd] at h
  split at h
  · cases h
  · rename_i hne
    cases h
    refine ⟨rfl, hne, ?_, hcovers⟩
    show p.Covers p.datagram
    rw [hcovers, hd]
    exact Model.datagram_assignment_eq hm

/-! ## One call -/

def asked (s : Search) : Search := { s with queries := s.queries + 1 }

structure Asks (expired : Bool) (s : Search) (q : Formula) : Prop where
  searching : s.phase = .searching
  below_limit : s.limitReached = false
  in_time : expired = false
  question_eq : s.question = .ok q
  hasHole_eq : q.hasHole = false

theorem Asks.means {expired : Bool} {s : Search} {q : Formula} (h : Asks expired s q)
    (hs : s.Grounded) : q.Means s.Open := by
  obtain ⟨q', hq', hmeans⟩ := question_means hs
  rw [h.question_eq] at hq'
  cases hq'
  exact hmeans

theorem Grounded.exists_asks {s : Search} (h : s.Grounded) {expired : Bool}
    (hsearching : s.phase = .searching) (hlimit : s.limitReached = false) (hexpired : expired = false) :
    ∃ q, Asks expired s q := by
  obtain ⟨q, hq, hmeans⟩ := question_means h
  exact ⟨q, hsearching, hlimit, hexpired, hq, hmeans.hasHole_eq⟩

/-- What a call does that puts its question, by the answer. -/
theorem Asks.next_eq {expired : Bool} {s : Search} {q : Formula} (h : Asks expired s q)
    (solver : Solver) :
    s.next solver expired =
      match solver q with
      | .unsat => ({ s.asked.finish with exhausted := true }, .exhausted)
      | .unknown reason => (s.asked.finish, .failed (.unknown reason))
      | .sat m =>
        match s.inconsistency m with
        | .error failure => s.asked.fail failure
        | .ok i => ({ s.asked with witnesses := s.witnesses ++ [i.packet] }, .found i) := by
  have hgoes : ¬s.phase = .done := by simp [h.searching]
  simp only [next, if_neg hgoes, h.below_limit, h.in_time, h.question_eq, Solver.ask, h.hasHole_eq,
    Bool.false_eq_true, if_false]
  cases solver q with
  | unsat => rfl
  | unknown reason => rfl
  | sat m => rfl

inductive Moves (solver : Solver) (expired : Bool) (s : Search) : Search × Step → Prop
  | ended : s.phase = .done → Moves solver expired s (s, .over)
  | limitReached : s.phase = .searching → s.limitReached = true →
      Moves solver expired s (s.finish, .limitReached)
  | deadlinePassed : s.phase = .searching → s.limitReached = false → expired = true →
      Moves solver expired s (s.finish, .deadlinePassed)
  /-- The question cannot be put, and nothing changes. -/
  | refused {failure : Failure} : s.phase = .searching → s.limitReached = false → expired = false →
      (∀ q, ¬Asks expired s q) → Moves solver expired s (s, .failed failure)
  | unknown {q : Formula} {reason : String} : Asks expired s q → solver q = .unknown reason →
      Moves solver expired s (s.asked.finish, .failed (.unknown reason))
  | exhausted {q : Formula} : Asks expired s q → solver q = .unsat →
      Moves solver expired s ({ s.asked.finish with exhausted := true }, .exhausted)
  /-- No report can be read off the model. -/
  | unread {q : Formula} {m : Model} {failure : Failure} : Asks expired s q → solver q = .sat m →
      s.inconsistency m = .error failure → Moves solver expired s (s.asked.fail failure)
  | found {q : Formula} {m : Model} {i : Inconsistency} : Asks expired s q → solver q = .sat m →
      s.inconsistency m = .ok i →
      Moves solver expired s ({ s.asked with witnesses := s.witnesses ++ [i.packet] }, .found i)

theorem next_moves (solver : Solver) (expired : Bool) (s : Search) :
    Moves solver expired s (s.next solver expired) := by
  unfold next
  by_cases hdone : s.phase = .done
  · rw [if_pos hdone]
    exact .ended hdone
  have hsearching : s.phase = .searching := by
    cases h : s.phase
    · rfl
    · exact absurd h hdone
  rw [if_neg hdone]
  by_cases hlimit : s.limitReached = true
  · rw [if_pos hlimit]
    exact .limitReached hsearching hlimit
  rw [if_neg hlimit]
  rw [Bool.not_eq_true] at hlimit
  by_cases hexp : expired = true
  · rw [if_pos hexp]
    exact .deadlinePassed hsearching hlimit hexp
  rw [if_neg hexp]
  rw [Bool.not_eq_true] at hexp
  cases hq : s.question with
  | error cause => exact .refused hsearching hlimit hexp fun q hask => by simp [hask.question_eq] at hq
  | ok q =>
    cases hhole : q.hasHole with
    | true =>
      have hnot : ∀ q, ¬Asks expired s q := by
        intro q' hask
        have := hask.question_eq
        rw [hq] at this
        cases this
        simp [hask.hasHole_eq] at hhole
      simp only [Solver.ask, hhole, if_true]
      exact .refused hsearching hlimit hexp hnot
    | false =>
      have hask : Asks expired s q := ⟨hsearching, hlimit, hexp, hq, hhole⟩
      simp only [Solver.ask, hhole, Bool.false_eq_true, if_false]
      cases hanswer : solver q with
      | unsat => exact .exhausted hask hanswer
      | unknown reason => exact .unknown hask hanswer
      | sat m =>
        -- Reading a model does not depend on the number of queries.
        have hsame : ({ s with queries := s.queries + 1 } : Search).inconsistency m =
          s.inconsistency m := rfl
        cases hread : s.inconsistency m with
        | error failure =>
          simp only [hsame, hread]
          exact .unread hask hanswer hread
        | ok i =>
          simp only [hsame, hread]
          exact .found hask hanswer hread

/-- A failure changes nothing but the phase. -/
theorem fail_fst (s : Search) (failure : Failure) :
    (s.fail failure).1 = s ∨ (s.fail failure).1 = s.finish := by
  unfold fail
  split
  · exact Or.inr rfl
  · exact Or.inl rfl

@[simp] theorem fail_snd (s : Search) (failure : Failure) : (s.fail failure).2 = .failed failure := rfl

section Moves

variable {solver : Solver} {expired : Bool} {s : Search} {out : Search × Step}

theorem Moves.firewalls_eq (h : Moves solver expired s out) : out.1.firewalls = s.firewalls := by
  cases h with
  | unread =>
    rename_i failure _ _ _
    rcases s.asked.fail_fst failure with h | h <;> rw [h] <;> rfl
  | _ => rfl

/-- A call adds to the witnesses the packet that it reports, if any. -/
theorem Moves.witnesses_eq (h : Moves solver expired s out) :
    out.1.witnesses = s.witnesses ++ out.2.inconsistency?.toList.map (·.packet) := by
  cases h with
  | unread =>
    rename_i failure _ _ _
    rcases s.asked.fail_fst failure with h | h <;> rw [h] <;> simp [Step.inconsistency?, asked, finish]
  | found => rfl
  | _ => simp [Step.inconsistency?, asked, finish]

end Moves

theorem exists_model_of_found {solver : Solver} {expired : Bool} {s : Search} {i : Inconsistency}
    (h : (s.next solver expired).2 = .found i) :
    ∃ q m, Asks expired s q ∧ solver q = .sat m ∧ s.inconsistency m = .ok i := by
  have hmove := next_moves solver expired s
  generalize s.next solver expired = out at hmove h
  cases hmove with
  | found hask hsat hread =>
    cases h
    exact ⟨_, _, hask, hsat, hread⟩
  | _ => cases h

/-- What a call reports is the report of a packet on which the firewalls differ. -/
theorem report_of_found {solver : Solver} (hsolver : solver.FitsPackets) {expired : Bool} {s : Search}
    (hs : s.Grounded) {i : Inconsistency} (h : (s.next solver expired).2 = .found i) :
    i = s.report i.packet ∧ i.allowed.1 ≠ i.allowed.2 ∧ i.packet.Covers i.packet.datagram := by
  obtain ⟨q, m, hask, hsat, hread⟩ := exists_model_of_found h
  have hmodel : m.OfPackets := hsolver q _ m (hask.means hs) hsat
  obtain ⟨hreport, hne, hself, -⟩ := of_inconsistency_eq_ok hmodel hread
  exact ⟨hreport, hne, hself⟩

theorem Step.eq_found_of_inconsistency? {step : Step} {i : Inconsistency}
    (h : step.inconsistency? = some i) : step = .found i := by
  cases step <;> simp_all [Step.inconsistency?]

theorem Grounded.next {solver : Solver} (hsolver : solver.FitsPackets) (expired : Bool) {s : Search}
    (hs : s.Grounded) : (s.next solver expired).1.Grounded := by
  intro w hw
  rw [(next_moves solver expired s).witnesses_eq, List.mem_append] at hw
  rcases hw with hw | hw
  · exact hs w hw
  · obtain ⟨i, hi, rfl⟩ := List.mem_map.mp hw
    have hfound := Step.eq_found_of_inconsistency? (Option.mem_toList.mp hi)
    exact (report_of_found hsolver hs hfound).2.2

/-! ## Runs -/

theorem eq_of_start {first second : Firewall} {limit : Option Int} {s : Search}
    (h : start first second limit = .ok s) : s = { firewalls := (first, second), limit } := by
  unfold start at h
  split at h
  · split at h
    · cases h
    · cases h; rfl
  · cases h; rfl

theorem start_of_nonneg (first second : Firewall) {limit : Option Int}
    (h : ∀ n, limit = some n → 0 ≤ n) :
    start first second limit = .ok { firewalls := (first, second), limit } := by
  cases limit with
  | none => rfl
  | some n =>
    have hsign : ¬n < 0 := Int.not_lt.mpr (h n rfl)
    simp only [start, if_neg hsign]

theorem grounded_of_start {first second : Firewall} {limit : Option Int} {s : Search}
    (h : start first second limit = .ok s) : s.Grounded := by
  rw [eq_of_start h]
  simp [Grounded]

structure Call where
  solver : Solver
  expired : Bool

def run (s : Search) : List Call → Trace
  | [] => []
  | c :: calls =>
    let stepped := s.next c.solver c.expired
    stepped :: run stepped.1 calls

def after (s : Search) (calls : List Call) : Search := (s.run calls).last s

@[simp] theorem Trace.last_nil (s : Search) : Trace.last s [] = s := rfl

@[simp] theorem Trace.last_cons (s : Search) (stepped : Search × Step) (trace : Trace) :
    Trace.last s (stepped :: trace) = trace.last stepped.1 := by
  simp only [Trace.last, List.getLast?_cons]
  cases trace.getLast? <;> rfl

@[simp] theorem after_nil (s : Search) : s.after [] = s := rfl

@[simp] theorem after_cons (s : Search) (c : Call) (calls : List Call) :
    s.after (c :: calls) = (s.next c.solver c.expired).1.after calls :=
  Trace.last_cons s _ _

/-- What every call keeps, a run of calls keeps. -/
theorem run_invariant {Inv : Search → Prop} {Ok : Call → Prop}
    (hstep : ∀ s c, Ok c → Inv s → Inv (s.next c.solver c.expired).1) {s : Search} (hs : Inv s)
    {calls : List Call} (hcalls : ∀ c ∈ calls, Ok c) : Inv (s.after calls) := by
  induction calls generalizing s with
  | nil => exact hs
  | cons c calls ih =>
    rw [after_cons]
    exact ih (hstep s c (hcalls c (by simp)) hs) fun c' hc => hcalls c' (by simp [hc])

theorem inconsistencies_run_cons (s : Search) (c : Call) (calls : List Call) :
    (s.run (c :: calls)).inconsistencies =
      (s.next c.solver c.expired).2.inconsistency?.toList ++
        ((s.next c.solver c.expired).1.run calls).inconsistencies := by
  simp only [run, Trace.inconsistencies, List.filterMap_cons]
  cases (s.next c.solver c.expired).2.inconsistency? <;> rfl

theorem exists_call_of_mem_inconsistencies {s : Search} {calls : List Call} {i : Inconsistency}
    (h : i ∈ (s.run calls).inconsistencies) :
    ∃ before c rest, calls = before ++ c :: rest ∧
      ((s.after before).next c.solver c.expired).2 = .found i := by
  induction calls generalizing s with
  | nil => simp [run, Trace.inconsistencies] at h
  | cons c calls ih =>
    rw [inconsistencies_run_cons, List.mem_append, Option.mem_toList] at h
    rcases h with h | h
    · refine ⟨[], c, calls, rfl, ?_⟩
      exact Step.eq_found_of_inconsistency? h
    · obtain ⟨before, c', rest, rfl, hfound⟩ := ih h
      exact ⟨c :: before, c', rest, rfl, by rw [after_cons]; exact hfound⟩

theorem after_firewalls (s : Search) (calls : List Call) : (s.after calls).firewalls = s.firewalls := by
  induction calls generalizing s with
  | nil => rfl
  | cons c calls ih => rw [after_cons, ih, (next_moves _ _ s).firewalls_eq]

/-- What a run reports is the report of a packet on which the firewalls differ. -/
theorem eq_report_of_mem {s : Search} (hs : s.Grounded) {calls : List Call}
    (hcalls : ∀ c ∈ calls, c.solver.FitsPackets) {i : Inconsistency}
    (hi : i ∈ (s.run calls).inconsistencies) :
    i = s.report i.packet ∧ i.allowed.1 ≠ i.allowed.2 ∧ i.packet.Covers i.packet.datagram := by
  obtain ⟨before, c, rest, rfl, hfound⟩ := exists_call_of_mem_inconsistencies hi
  have hgrounded : (s.after before).Grounded :=
    run_invariant (fun s c hc hs => hs.next hc c.expired) hs fun c hc => hcalls c (by simp [hc])
  obtain ⟨hreport, hne, hself⟩ := report_of_found (hcalls c (by simp)) hgrounded hfound
  have hsame : (s.after before).report i.packet = s.report i.packet := by
    simp only [report, after_firewalls]
  exact ⟨hreport.trans hsame, hne, hself⟩

theorem after_witnesses (s : Search) (calls : List Call) :
    (s.after calls).witnesses = s.witnesses ++ (s.run calls).inconsistencies.map (·.packet) := by
  induction calls generalizing s with
  | nil => simp [run, Trace.inconsistencies]
  | cons c calls ih =>
    rw [after_cons, ih, (next_moves _ _ s).witnesses_eq, inconsistencies_run_cons, List.map_append,
      List.append_assoc]

section Start

variable {first second : Firewall} {limit : Option Int} {s : Search}
  (hstart : start first second limit = .ok s) {calls : List Call}
include hstart

theorem firewalls_after : (s.after calls).firewalls = (first, second) := by
  rw [after_firewalls, eq_of_start hstart]

theorem witnesses_after :
    (s.after calls).witnesses = (s.run calls).inconsistencies.map (·.packet) := by
  rw [after_witnesses, eq_of_start hstart]
  rfl

end Start

end Search

end FirewallPolicy
