import FirewallPolicy.Formula.Restrict

/-!
The cells of a variable in a formula.

A variable occurs only in comparisons with constants, so a formula's value changes along one
variable at finitely many points. Between two such points every value behaves like the lower one:
it is enough to try one value of each cell. `tryCells` does so; it tries no formula twice
(`tryCells_eq_findSome?`). `valueAt` sees cheaply that a cell decides the formula
(`eval_of_valueAt`).
-/

namespace FirewallPolicy.Formula

mutual

/-- The values of a variable at which a comparison can change. -/
def cuts (v : Variable) : Formula → List Nat
  | const _ => []
  | inRange u low high => if u = v then [v.residue low, v.residue high + 1] else []
  | equals u c => if u = v then [v.residue c, v.residue c + 1] else []
  | all parts => cutsOfAll v parts
  | any parts => cutsOfAll v parts
  | not operand => cuts v operand
  | hole => []

def cutsOfAll (v : Variable) : List Formula → List Nat
  | [] => []
  | part :: rest => cuts v part ++ cutsOfAll v rest

end

/-- The least value of each cell of the variable. -/
def cells (v : Variable) (f : Formula) : List Nat :=
  let bound := v.modulus
  (0 :: (f.cuts v).filter (· < bound)).eraseDups

mutual

/-- The formula's value wherever the variable has the given value, if that decides it. -/
def valueAt (v : Variable) (x : Nat) : Formula → Option Bool
  | const b => some b
  | inRange u low high =>
    if u = v then some (decide (v.residue low ≤ x) && decide (x ≤ v.residue high)) else none
  | equals u c => if u = v then some (decide (x = v.residue c)) else none
  | all parts => valueOfAllAt v x parts
  | any parts => valueOfAnyAt v x parts
  | not operand => (valueAt v x operand).map (!·)
  | hole => none

def valueOfAllAt (v : Variable) (x : Nat) : List Formula → Option Bool
  | [] => some true
  | part :: rest =>
    match valueAt v x part with
    | some false => some false
    | some true => valueOfAllAt v x rest
    | none => if valueOfAllAt v x rest = some false then some false else none

def valueOfAnyAt (v : Variable) (x : Nat) : List Formula → Option Bool
  | [] => some false
  | part :: rest =>
    match valueAt v x part with
    | some true => some true
    | some false => valueOfAnyAt v x rest
    | none => if valueOfAnyAt v x rest = some true then some true else none

end

mutual

theorem eval_of_valueAt {v : Variable} {x : Nat} (σ : Assignment) :
    ∀ {f : Formula} {b : Bool}, f.valueAt v x = some b → f.eval (σ.update v x) = b
  | const _, _, h => by simpa [valueAt] using h
  | inRange u low high, b, h => by
    by_cases hu : u = v
    · subst hu; simpa [valueAt, eval] using h
    · simp [valueAt, hu] at h
  | equals u c, b, h => by
    by_cases hu : u = v
    · subst hu; simpa [valueAt, eval] using h
    · simp [valueAt, hu] at h
  | all parts, _, h => by rw [valueAt] at h; rw [eval]; exact evalAll_of_valueOfAllAt σ h
  | any parts, _, h => by rw [valueAt] at h; rw [eval]; exact evalAny_of_valueOfAnyAt σ h
  | not operand, b, h => by
    rw [valueAt, Option.map_eq_some_iff] at h
    obtain ⟨c, hc, rfl⟩ := h
    rw [eval_not, eval_of_valueAt σ hc]
  | hole, _, h => by simp [valueAt] at h

theorem evalAll_of_valueOfAllAt {v : Variable} {x : Nat} (σ : Assignment) :
    ∀ {parts : List Formula} {b : Bool}, valueOfAllAt v x parts = some b →
      evalAll (σ.update v x) parts = b
  | [], _, h => by simpa [valueOfAllAt, evalAll] using h
  | p :: ps, b, h => by
    rw [valueOfAllAt] at h
    rw [evalAll]
    split at h
    · rename_i hp
      rw [eval_of_valueAt σ hp, Bool.false_and]
      exact Option.some.inj h
    · rename_i hp
      rw [eval_of_valueAt σ hp, Bool.true_and]
      exact evalAll_of_valueOfAllAt σ h
    · split at h
      · rename_i hps
        rw [evalAll_of_valueOfAllAt σ hps, Bool.and_false]
        exact Option.some.inj h
      · cases h

theorem evalAny_of_valueOfAnyAt {v : Variable} {x : Nat} (σ : Assignment) :
    ∀ {parts : List Formula} {b : Bool}, valueOfAnyAt v x parts = some b →
      evalAny (σ.update v x) parts = b
  | [], _, h => by simpa [valueOfAnyAt, evalAny] using h
  | p :: ps, b, h => by
    rw [valueOfAnyAt] at h
    rw [evalAny]
    split at h
    · rename_i hp
      rw [eval_of_valueAt σ hp, Bool.true_or]
      exact Option.some.inj h
    · rename_i hp
      rw [eval_of_valueAt σ hp, Bool.false_or]
      exact evalAny_of_valueOfAnyAt σ h
    · split at h
      · rename_i hps
        rw [evalAny_of_valueOfAnyAt σ hps, Bool.or_true]
        exact Option.some.inj h
      · cases h

end

/-- Tries what is left of the formula in the given cells of the variable, and gives the first cell
in which there is an answer, with the answer. A cell to be skipped is not looked at, and what was
tried before without an answer is not tried again. -/
def tryCells {α : Type} (attempt : Formula → Option α) (skip : Nat → Bool) (v : Variable)
    (f : Formula) : List Formula → List Nat → Option (Nat × α)
  | _, [] => none
  | tried, x :: rest =>
    if skip x then tryCells attempt skip v f tried rest
    else
      let left := f.restrict v x
      if tried.any left.same then tryCells attempt skip v f tried rest
      else
        match attempt left with
        | some answer => some (x, answer)
        | none => tryCells attempt skip v f (left :: tried) rest

/-- If the skipped cells have no answer, leaving cells out changes nothing. -/
theorem tryCells_eq_findSome? {α : Type} {attempt : Formula → Option α} {skip : Nat → Bool}
    {v : Variable} {f : Formula} (hskip : ∀ x, skip x = true → attempt (f.restrict v x) = none)
    {tried : List Formula} (htried : ∀ g ∈ tried, attempt g = none) (cells : List Nat) :
    tryCells attempt skip v f tried cells =
      cells.findSome? fun x => (attempt (f.restrict v x)).map (x, ·) := by
  induction cells generalizing tried with
  | nil => rfl
  | cons x rest ih =>
    rw [tryCells, List.findSome?_cons]
    split
    · rename_i hs
      rw [hskip x hs]
      exact ih htried
    · simp only
      split
      · rename_i hs
        obtain ⟨g, hg, hsame⟩ := List.any_eq_true.1 hs
        rw [(same_iff _ _).1 hsame, htried g hg]
        exact ih htried
      · split
        · rename_i answer ha
          rw [ha]
          rfl
        · rename_i ha
          rw [ha]
          refine ih fun g hg => ?_
          rcases List.mem_cons.1 hg with rfl | hg
          · exact ha
          · exact htried g hg

end FirewallPolicy.Formula
