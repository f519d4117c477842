import FirewallPolicy.Log
import FirewallPolicy.Solver.Exact
import FirewallPolicy.Solver.View

/-!
Asking a solver.

A solver is any function from formulas to answers. A formula with a hole is refused before the
solver is asked. A session counts the queries that were asked; each of them is logged under its
number.
-/

namespace FirewallPolicy

abbrev Solver := Formula → Answer

namespace Solver

def exact : Solver := solve

/-- Asks the solver, which has to say yes, with a model, or no. -/
def ask (solver : Solver) (f : Formula) : Except Failure (Option Model) :=
  if f.hasHole then .error .hole
  else match solver f with
    | .unsat => .ok none
    | .sat m => .ok (some m)
    | .unknown reason => .error (.unknown reason)

/-- A solver whose answers are laid down for some queries, by their number. -/
def scripted (answers : List (Option Answer)) (query : Nat) (solver : Solver) : Solver := fun f =>
  ((answers[query]?).join).getD (solver f)

/-- The answer of an outcome of `ask`, if the solver was asked. -/
def answered : Except Failure (Option Model) → Option String
  | .ok (some _) => some "sat"
  | .ok none => some "unsat"
  | .error (.unknown _) => some "unknown"
  | .error _ => none

end Solver

structure Session where
  queries : Nat := 0
  deriving DecidableEq, Repr

namespace Session

/-- Asks, and counts the query unless it was refused. -/
def check (s : Session) (solver : Solver) (f : Formula) : Except Failure (Option Model) × Session :=
  (solver.ask f, if f.hasHole then s else ⟨s.queries + 1⟩)

def queryEvent (query : Nat) (outcome : Except Failure (Option Model)) : List Log.Event :=
  match Solver.answered outcome with
  | some answer => [⟨.debug, .solver, s!"Query {query} returned {answer}"⟩]
  | none => []

end Session

end FirewallPolicy
