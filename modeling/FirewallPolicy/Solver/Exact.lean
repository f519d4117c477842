import FirewallPolicy.Solver.Choice
import FirewallPolicy.Solver.Model

/-!
An exact decision procedure for formulas without holes.

`findPoint` tries the cells of one variable after the other, and `dependsOn` compares the formulas
left over in the cells of one.

`solve` answers with as few bindings as the parts of the question need: it finds one point, goes
through the conjuncts from left to right, and binds in each the variables on which what is left
of it still depends. So every assignment that extends the model makes the formula true.
-/

namespace FirewallPolicy

namespace Formula

/-! ## Search -/

/-- Values for some variables at which the formula is true if all others are zero. Every step uses
up a variable, so fuel for the variables of the formula is enough. -/
def findPoint : Nat → Formula → Option (List (Variable × Nat))
  | fuel, f =>
    if f.isFalse then none
    else
      match f.nextVariable, fuel with
      | some v, fuel + 1 =>
        let skip (x : Nat) : Bool := f.valueAt v x == some false
        (tryCells (findPoint fuel) skip v f [] (f.cells v)).map fun p => (v, p.1) :: p.2
      | _, _ => if f.eval fun _ => 0 then some [] else none

def point? (f : Formula) : Option (List (Variable × Nat)) := findPoint f.vars.length f

/-! ## Dependence -/

def dependsAt (f : Formula) (σ : Assignment) (v : Variable) : Bool :=
  (f.cells v).any fun x => f.eval (σ.update v x) != f.eval σ

/-- Whether a change of this variable alone can change the formula's value at some point. -/
def dependsOn (f : Formula) (v : Variable) : Bool :=
  let first := f.restrict v 0
  let attempt (left : Formula) := (first.differ left).point?
  (tryCells attempt (fun _ => false) v f [first] (f.cells v)).isSome

/-! ## The answer -/

def restrictBy (f : Formula) (bindings : List (Variable × Nat)) : Formula :=
  bindings.foldl (fun g b => g.restrict b.1 b.2) f

/-- Binds, part by part, the variables on which what is left of the part depends. -/
def bindParts (point : Assignment) : List Formula → List (Variable × Nat) → List (Variable × Nat)
  | [], bound => bound
  | part :: rest, bound =>
    let left := part.restrictBy bound
    let needed := left.vars.filter fun v => left.dependsAt point v || left.dependsOn v
    bindParts point rest (bound ++ needed.map fun v => (v, point v))

end Formula

/-- Decides a formula without holes. -/
def solve (f : Formula) : Answer :=
  match f.point? with
  | none => .unsat
  | some point => .sat ⟨Formula.bindParts (Model.mk point).assignment f.conjuncts []⟩

end FirewallPolicy
