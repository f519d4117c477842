import FirewallPolicy.Formula.Eval

/-!
Models: what a solver answers, and the reading of a partial assignment.

A model binds some variables to values and leaves the others free. Evaluating a formula in a
model completes the model first: every variable of the formula that is still free becomes bound
to zero and stays so. The value found is the value under `Model.assignment`, the total
assignment that gives zero to every free variable, whatever was evaluated before
(`assignment_complete`).
-/

namespace FirewallPolicy

structure Model where
  bindings : List (Variable × Nat)
  deriving DecidableEq, Repr

namespace Model

def empty : Model := ⟨[]⟩

def get? (m : Model) (v : Variable) : Option Nat := m.bindings.lookup v

/-- The value of the variable of that name that was bound first. A variable with an empty name is
not found by it. -/
def value? (m : Model) (name : String) : Option Nat :=
  if name.isEmpty then none else (m.bindings.find? (·.1.name == name)).map (·.2)

def assignment (m : Model) : Assignment := fun v => (m.get? v).getD 0

/-- Binds to zero every variable of the formula that is still free. -/
def complete (m : Model) (f : Formula) : Model :=
  ⟨m.bindings ++ (f.vars.filter fun v => (m.get? v).isNone).map fun v => (v, 0)⟩

def Extends (σ : Assignment) (m : Model) : Prop := ∀ v x, m.get? v = some x → σ v = x

theorem extends_assignment (m : Model) : Extends m.assignment m := by
  intro v x h
  simp [assignment, h]

private theorem lookup_zeros (v : Variable) (vs : List Variable) :
    (vs.map fun u => (u, 0)).lookup v = if v ∈ vs then some 0 else none := by
  induction vs with
  | nil => simp
  | cons u us ih =>
    by_cases h : v = u
    · subst h; simp
    · have hb : (v == u) = false := by simp [h]
      simp only [List.map_cons, List.lookup_cons, hb, ih]
      simp [h]

theorem get?_complete (m : Model) (f : Formula) (v : Variable) :
    (m.complete f).get? v = (m.get? v).or (if v ∈ f.vars then some 0 else none) := by
  simp only [get?, complete, List.lookup_append, lookup_zeros]
  cases h : List.lookup v m.bindings <;> simp [h]

@[simp] theorem assignment_complete (m : Model) (f : Formula) :
    (m.complete f).assignment = m.assignment := by
  funext v
  simp only [assignment, get?_complete]
  cases m.get? v
  · by_cases h : v ∈ f.vars <;> simp [h]
  · simp

end Model

inductive Answer where
  | unsat
  | sat (model : Model)
  | unknown (reason : String)
  deriving DecidableEq, Repr

end FirewallPolicy
