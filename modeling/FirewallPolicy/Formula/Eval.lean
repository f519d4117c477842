import FirewallPolicy.Formula.Basic

/-!
The meaning of a formula: its value under an assignment of numbers to variables.

Constants are reduced to the width of the field they are compared with, and comparison is
unsigned. A formula's value depends only on the variables that occur in it (`eval_congr`).
-/

namespace FirewallPolicy

abbrev Assignment := Variable → Nat

namespace Assignment

def InWidth (σ : Assignment) : Prop := ∀ v, σ v < v.modulus

def update (σ : Assignment) (v : Variable) (x : Nat) : Assignment :=
  fun u => if u = v then x else σ u

@[simp] theorem update_self (σ : Assignment) (v : Variable) (x : Nat) : σ.update v x v = x := by
  simp [update]

theorem update_of_ne (σ : Assignment) {u v : Variable} (x : Nat) (h : u ≠ v) :
    σ.update v x u = σ u := by
  simp [update, h]

theorem InWidth.update {σ : Assignment} (h : σ.InWidth) {v : Variable} {x : Nat}
    (hx : x < v.modulus) : (σ.update v x).InWidth := by
  intro u
  by_cases hu : u = v
  · subst hu; simpa using hx
  · simpa [update_of_ne σ x hu] using h u

end Assignment

namespace Formula

mutual

def eval (σ : Assignment) : Formula → Bool
  | const b => b
  | inRange v low high => decide (v.residue low ≤ σ v) && decide (σ v ≤ v.residue high)
  | equals v c => decide (σ v = v.residue c)
  | all parts => evalAll σ parts
  | any parts => evalAny σ parts
  | not operand => !eval σ operand
  | hole => false

def evalAll (σ : Assignment) : List Formula → Bool
  | [] => true
  | part :: rest => eval σ part && evalAll σ rest

def evalAny (σ : Assignment) : List Formula → Bool
  | [] => false
  | part :: rest => eval σ part || evalAny σ rest

end

def Satisfiable (f : Formula) : Prop := ∃ σ : Assignment, σ.InWidth ∧ f.eval σ = true

theorem evalAll_eq_all (σ : Assignment) (parts : List Formula) :
    evalAll σ parts = parts.all (eval σ) := by
  induction parts with
  | nil => rfl
  | cons p ps ih => simp [evalAll, ih]

theorem evalAny_eq_any (σ : Assignment) (parts : List Formula) :
    evalAny σ parts = parts.any (eval σ) := by
  induction parts with
  | nil => rfl
  | cons p ps ih => simp [evalAny, ih]

@[simp] theorem eval_const (σ : Assignment) (b : Bool) : (const b).eval σ = b := by simp [eval]

@[simp] theorem eval_not (σ : Assignment) (f : Formula) : f.not.eval σ = !f.eval σ := by simp [eval]

@[simp] theorem eval_all (σ : Assignment) (parts : List Formula) :
    (all parts).eval σ = parts.all (eval σ) := by simp [eval, evalAll_eq_all]

@[simp] theorem eval_any (σ : Assignment) (parts : List Formula) :
    (any parts).eval σ = parts.any (eval σ) := by simp [eval, evalAny_eq_any]

@[simp] theorem eval_conjunction (σ : Assignment) (parts : List Formula) :
    (conjunction parts).eval σ = parts.all (eval σ) := by
  cases parts <;> simp [conjunction]

@[simp] theorem eval_disjunction (σ : Assignment) (parts : List Formula) :
    (disjunction parts).eval σ = parts.any (eval σ) := by
  cases parts <;> simp [disjunction]

@[simp] theorem eval_iff (σ : Assignment) (f g : Formula) :
    (iff f g).eval σ = (f.eval σ == g.eval σ) := by
  cases hf : f.eval σ <;> cases hg : g.eval σ <;> simp [iff, hf, hg]

mutual

theorem eval_congr {σ τ : Assignment} :
    ∀ f : Formula, (∀ v ∈ f.fields, σ v = τ v) → f.eval σ = f.eval τ
  | const _, _ => by simp [eval]
  | inRange v _ _, h => by simp [eval, h v (by simp [fields])]
  | equals v _, h => by simp [eval, h v (by simp [fields])]
  | all parts, h => by
    simp only [eval]; exact evalAll_congr parts (by simpa [fields] using h)
  | any parts, h => by
    simp only [eval]; exact evalAny_congr parts (by simpa [fields] using h)
  | not operand, h => by
    simp only [eval]; rw [eval_congr operand (by simpa [fields] using h)]
  | hole, _ => by simp [eval]

theorem evalAll_congr {σ τ : Assignment} :
    ∀ parts : List Formula, (∀ v ∈ fieldsOfAll parts, σ v = τ v) →
      evalAll σ parts = evalAll τ parts
  | [], _ => rfl
  | p :: ps, h => by
    simp only [evalAll]
    rw [eval_congr p (fun v hv => h v (by simp [fieldsOfAll, hv])),
      evalAll_congr ps (fun v hv => h v (by simp [fieldsOfAll, hv]))]

theorem evalAny_congr {σ τ : Assignment} :
    ∀ parts : List Formula, (∀ v ∈ fieldsOfAll parts, σ v = τ v) →
      evalAny σ parts = evalAny τ parts
  | [], _ => rfl
  | p :: ps, h => by
    simp only [evalAny]
    rw [eval_congr p (fun v hv => h v (by simp [fieldsOfAll, hv])),
      evalAny_congr ps (fun v hv => h v (by simp [fieldsOfAll, hv]))]

end

end Formula

end FirewallPolicy
