import FirewallPolicy.Solver.Session

/-!
The search for packets that two firewalls decide differently.

Each step asks the solver for a packet on which the firewalls disagree and that no earlier witness
covers. A field that the solver leaves free is open in the witness, so that leaving out the witness
leaves out its whole class. The search is over when there is no such packet (`exhausted`), when
the limit is reached, when the deadline has passed, or when the solver gives no usable answer.

`Search.next` is one step: it takes the solver and whether the deadline has passed as arguments, so
each step may be given another solver and another reading of the clock. `Search.drain` repeats it
to the end.
-/

namespace FirewallPolicy

/-- A packet that two firewalls decide differently, with the rules that match it. -/
structure Inconsistency where
  packet : Packet
  firewalls : Firewall × Firewall
  allowed : Bool × Bool
  rules : List Rule × List Rule
  deriving DecidableEq, Repr

namespace Inconsistency

def allowedBy (i : Inconsistency) : Firewall := if i.allowed.1 then i.firewalls.1 else i.firewalls.2

end Inconsistency

inductive Phase where
  | searching
  | done
  deriving DecidableEq, Repr

structure Search where
  firewalls : Firewall × Firewall
  limit : Option Int := none
  phase : Phase := .searching
  /-- No disagreement is left beside the witnesses. -/
  exhausted : Bool := false
  witnesses : List Packet := []
  queries : Nat := 0
  deriving DecidableEq, Repr

namespace Search

def start (first second : Firewall) (limit : Option Int) : Except Failure Search :=
  match limit with
  | some n =>
    if n < 0 then .error (.invalid (.worded (.negativeLimit n)))
    else .ok { firewalls := (first, second), limit }
  | none => .ok { firewalls := (first, second) }

inductive Step where
  /-- The search was over before. -/
  | over
  | limitReached
  | deadlinePassed
  | exhausted
  | found (inconsistency : Inconsistency)
  | failed (failure : Failure)
  deriving DecidableEq, Repr

def limitReached (s : Search) : Bool := s.limit.any fun n => decide (n ≤ (s.witnesses.length : Int))

/-- The formula that the firewalls disagree on a packet that no witness covers. -/
def question (s : Search) : Except Invalid Formula := do
  let first ← s.firewalls.1.admits
  let second ← s.firewalls.2.admits
  let excluded ← s.witnesses.mapM (·.pattern)
  return .conjunction [.not (.iff first second), .not (.disjunction excluded)]

/-- The inconsistency that a model shows. -/
def inconsistency (s : Search) (m : Model) : Except Failure Inconsistency := do
  let packet ← Failure.ofInvalid m.packet
  let (first, m) ← m.admitted s.firewalls.1
  let (second, m) ← m.admitted s.firewalls.2
  if first = second then throw (.notSeparating packet)
  let (firstRules, m) ← m.matchingRules s.firewalls.1.rules
  let (secondRules, _) ← m.matchingRules s.firewalls.2.rules
  return ⟨packet, s.firewalls, (first, second), (firstRules, secondRules)⟩

def endsSearch : Failure → Bool
  | .unknown _ => true
  | .notSeparating _ => true
  | _ => false

def finish (s : Search) : Search := { s with phase := .done }

/-- Fails, and ends the search if the failure does. -/
def fail (s : Search) (failure : Failure) : Search × Step :=
  (if endsSearch failure then s.finish else s, .failed failure)

def next (solver : Solver) (expired : Bool) (s : Search) : Search × Step :=
  if s.phase = .done then (s, .over)
  else if s.limitReached then (s.finish, .limitReached)
  else if expired then (s.finish, .deadlinePassed)
  else match s.question with
    | .error cause => s.fail (.invalid cause)
    | .ok question =>
      let asked := { s with queries := s.queries + 1 }
      match solver.ask question with
      | .error .hole => s.fail .hole
      | .error failure => asked.fail failure
      | .ok none => ({ asked.finish with exhausted := true }, .exhausted)
      | .ok (some m) =>
        match asked.inconsistency m with
        | .error failure => asked.fail failure
        | .ok i => ({ asked with witnesses := s.witnesses ++ [i.packet] }, .found i)

/-- What a run of steps did: each step with the search after it. -/
abbrev Trace := List (Search × Step)

/-- Steps until one finds nothing, or as many as the fuel allows. The solver and the clock are asked
by the number of the query. -/
def drainFuel (solver : Nat → Solver) (expired : Nat → Bool) : Nat → Search → Trace
  | 0, _ => []
  | fuel + 1, s =>
    match s.next (solver s.queries) (expired s.queries) with
    | (after, .found i) => (after, .found i) :: drainFuel solver expired fuel after
    | (after, step) => [(after, step)]

/-- One more than there are datagrams: each step that finds something uses up at least one. -/
def maxSteps : Nat := Nat.pow 2 72 + 1

def drain (solver : Nat → Solver) (expired : Nat → Bool) (s : Search) : Trace :=
  drainFuel solver expired maxSteps s

/-! ## What steps show -/

def Step.inconsistency? : Step → Option Inconsistency
  | found i => some i
  | _ => none

def Step.failure? : Step → Option Failure
  | failed f => some f
  | _ => none

namespace Trace

def last (start : Search) (trace : Trace) : Search := (trace.getLast?.map (·.1)).getD start

def inconsistencies (trace : Trace) : List Inconsistency := trace.filterMap (·.2.inconsistency?)

def failure? (trace : Trace) : Option Failure := trace.findSome? (·.2.failure?)

end Trace

def stepEvents (before after : Search) (step : Step) : List Log.Event :=
  let asked (answer : String) : Log.Event :=
    ⟨.debug, .solver, s!"Query {after.queries} returned {answer}"⟩
  let count := after.witnesses.length
  match step with
  | .over => []
  | .limitReached => [⟨.info, .search, s!"Stopping after {count} inconsistencies (limit reached)"⟩]
  | .deadlinePassed =>
    [⟨.warning, .search, s!"Stopping after {count} inconsistencies (timeout reached)"⟩]
  | .exhausted =>
    [asked "unsat", ⟨.debug, .search, s!"No further disagreement after {count} witnesses"⟩]
  | .found i => [asked "sat", ⟨.debug, .search, s!"Inconsistency {count}: {i.packet.text}"⟩]
  | .failed (.unknown _) => [asked "unknown"]
  | .failed _ => if before.queries < after.queries then [asked "sat"] else []

def events (before : Search) : Trace → List Log.Event
  | [] => []
  | (after, step) :: rest => stepEvents before after step ++ events after rest

end Search

end FirewallPolicy
