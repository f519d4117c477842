import Mathlib.Data.Nat.Find
import FirewallPolicy.Solver.Exact

/-!
The search for a point is exact.

One value of each cell stands for all of the cell: a value and the cell it lies in are on the same
side of every cut (`exists_cell`), and a formula has the same value at both (`eval_update_congr`).
So a search that tries the cells misses no point, and since every variable it puts a value for is
gone from what is left, fuel for the variables is enough.

Proved:
- `point?_eq_some`: a point that is found makes the formula true, and its values fit;
- `point?_eq_none_iff`: none is found exactly if there is none;
- `eval_update_of_not_dependsOn`, `eval_eq_of_agree`: a variable on which a formula is found not to
  depend does not count, and neither do any number of them.
-/

namespace FirewallPolicy

namespace Assignment

@[simp] theorem update_eq_self (σ : Assignment) (v : Variable) : σ.update v (σ v) = σ := by
  funext u
  by_cases h : u = v
  · subst h; simp
  · simp [update_of_ne σ _ h]

end Assignment

namespace Formula

/-! ## Cells -/

mutual

/-- A formula does not tell two values apart that lie on the same side of all its cuts. -/
theorem eval_update_congr (σ : Assignment) {v : Variable} {x y : Nat} :
    ∀ f : Formula, (∀ k ∈ f.cuts v, k ≤ x ↔ k ≤ y) → f.eval (σ.update v x) = f.eval (σ.update v y)
  | const _, _ => by simp
  | inRange u low high, h => by
    by_cases hu : u = v
    · subst hu
      have hl := h (u.residue low) (by simp [cuts])
      have hh := h (u.residue high + 1) (by simp [cuts])
      have hx : (x ≤ u.residue high) ↔ (y ≤ u.residue high) := by omega
      simp [eval, hl, hx]
    · simp [eval, Assignment.update_of_ne σ _ hu]
  | equals u c, h => by
    by_cases hu : u = v
    · subst hu
      have hl := h (u.residue c) (by simp [cuts])
      have hh := h (u.residue c + 1) (by simp [cuts])
      have hx : (x = u.residue c) ↔ (y = u.residue c) := by omega
      simp [eval, hx]
    · simp [eval, Assignment.update_of_ne σ _ hu]
  | all parts, h => by
    simp only [eval]
    exact evalAll_update_congr σ parts (by simpa [cuts] using h)
  | any parts, h => by
    simp only [eval]
    exact evalAny_update_congr σ parts (by simpa [cuts] using h)
  | not operand, h => by
    simp only [eval]
    rw [eval_update_congr σ operand (by simpa [cuts] using h)]
  | hole, _ => by simp [eval]

theorem evalAll_update_congr (σ : Assignment) {v : Variable} {x y : Nat} :
    ∀ parts : List Formula, (∀ k ∈ cutsOfAll v parts, k ≤ x ↔ k ≤ y) →
      evalAll (σ.update v x) parts = evalAll (σ.update v y) parts
  | [], _ => rfl
  | p :: ps, h => by
    simp only [evalAll]
    rw [eval_update_congr σ p (fun k hk => h k (by simp [cutsOfAll, hk])),
      evalAll_update_congr σ ps (fun k hk => h k (by simp [cutsOfAll, hk]))]

theorem evalAny_update_congr (σ : Assignment) {v : Variable} {x y : Nat} :
    ∀ parts : List Formula, (∀ k ∈ cutsOfAll v parts, k ≤ x ↔ k ≤ y) →
      evalAny (σ.update v x) parts = evalAny (σ.update v y) parts
  | [], _ => rfl
  | p :: ps, h => by
    simp only [evalAny]
    rw [eval_update_congr σ p (fun k hk => h k (by simp [cutsOfAll, hk])),
      evalAny_update_congr σ ps (fun k hk => h k (by simp [cutsOfAll, hk]))]

end

theorem mem_cells {v : Variable} {f : Formula} {k : Nat} :
    k ∈ f.cells v ↔ k = 0 ∨ (k ∈ f.cuts v ∧ k < v.modulus) := by
  simp [cells, List.mem_eraseDups]

theorem lt_modulus_of_mem_cells {v : Variable} {f : Formula} {k : Nat} (h : k ∈ f.cells v) :
    k < v.modulus := by
  rcases mem_cells.mp h with rfl | ⟨-, hk⟩
  · exact v.modulus_pos
  · exact hk

/-- Every value that fits lies in a cell: no cut separates it from the cell's least value. -/
theorem exists_cell (f : Formula) {v : Variable} {x : Nat} (hx : x < v.modulus) :
    ∃ c ∈ f.cells v, ∀ k ∈ f.cuts v, k ≤ c ↔ k ≤ x := by
  have hzero : 0 ∈ f.cells v := mem_cells.mpr (Or.inl rfl)
  refine ⟨Nat.findGreatest (· ∈ f.cells v) x, Nat.findGreatest_spec (Nat.zero_le x) hzero, ?_⟩
  intro k hk
  constructor
  · intro h
    exact Nat.le_trans h (Nat.findGreatest_le x)
  · intro h
    exact Nat.le_findGreatest h (mem_cells.mpr (Or.inr ⟨hk, by omega⟩))

theorem exists_cell_eval (f : Formula) (σ : Assignment) {v : Variable} {x : Nat}
    (hx : x < v.modulus) : ∃ c ∈ f.cells v, f.eval (σ.update v c) = f.eval (σ.update v x) := by
  obtain ⟨c, hc, hcut⟩ := exists_cell f hx
  exact ⟨c, hc, eval_update_congr σ f hcut⟩

/-! ## Points -/

theorem nodup_eraseDups {α : Type} [DecidableEq α] : ∀ xs : List α, xs.eraseDups.Nodup
  | [] => by simp
  | x :: xs => by
    have hlen : (xs.filter fun y => !y == x).length ≤ xs.length := List.length_filter_le _ _
    rw [List.eraseDups_cons, List.nodup_cons]
    exact ⟨by simp [List.mem_eraseDups], nodup_eraseDups _⟩
  termination_by xs => xs.length

/-- A variable that a value is put for is gone. -/
theorem length_vars_restrict_lt {f : Formula} {v : Variable} (hv : v ∈ f.vars) (x : Nat) :
    (f.restrict v x).vars.length < f.vars.length := by
  have hsub : (f.restrict v x).vars ⊆ f.vars.erase v := by
    intro u hu
    obtain ⟨hf, hne⟩ := mem_fields_restrict f (mem_vars.mp hu)
    exact (List.mem_erase_of_ne hne).mpr (mem_vars.mpr hf)
  have hnodup : (f.restrict v x).vars.Nodup := nodup_eraseDups _
  have hle := hnodup.length_le_of_subset hsub
  rw [List.length_erase_of_mem hv] at hle
  have := List.length_pos_of_mem hv
  omega

theorem eval_zero_of_nextVariable {f : Formula} {σ : Assignment} (h : f.nextVariable = none)
    (htrue : f.eval σ = true) : f.eval (fun _ => 0) = true := by
  have hvars := nextVariable_eq_none_iff.mp h
  rw [← htrue]
  refine eval_congr f fun u hu => ?_
  have := mem_vars.mpr hu
  simp [hvars] at this

theorem isFalse_eq_false {f : Formula} {σ : Assignment} (h : f.eval σ = true) : f.isFalse = false := by
  cases hf : f.isFalse with
  | false => rfl
  | true => rw [eval_of_isFalse hf σ] at h; cases h

end Formula

namespace Model

@[simp] theorem assignment_nil : (Model.mk []).assignment = fun _ => 0 := rfl

theorem assignment_cons (v : Variable) (x : Nat) (bindings : List (Variable × Nat)) :
    (Model.mk ((v, x) :: bindings)).assignment = (Model.mk bindings).assignment.update v x := by
  funext u
  by_cases h : u = v
  · subst h; simp [assignment, get?]
  · have hb : (u == v) = false := by simp [h]
    simp [assignment, get?, List.lookup_cons, hb, Assignment.update_of_ne _ _ h]

theorem mem_bindings_of_get? {m : Model} {v : Variable} {x : Nat} (h : m.get? v = some x) :
    (v, x) ∈ m.bindings := by
  obtain ⟨before, after, heq, -⟩ := List.lookup_eq_some_iff.mp h
  rw [heq]
  simp

theorem exists_get?_of_mem {m : Model} {b : Variable × Nat} (h : b ∈ m.bindings) :
    ∃ x, m.get? b.1 = some x :=
  Option.isSome_iff_exists.mp (List.lookup_isSome_iff.mpr ⟨b, h, by simp⟩)

theorem assignment_inWidth {m : Model} (h : ∀ b ∈ m.bindings, b.2 < b.1.modulus) :
    m.assignment.InWidth := by
  intro v
  cases hv : m.get? v with
  | none => simpa [assignment, hv] using v.modulus_pos
  | some x => simpa [assignment, hv] using h (v, x) (mem_bindings_of_get? hv)

end Model

namespace Formula

theorem findPoint_of_isFalse {f : Formula} (fuel : Nat) (h : f.isFalse = true) :
    findPoint fuel f = none := by
  rw [findPoint.eq_def]
  simp [h]

theorem findPoint_eq_some_of_stop {f : Formula} {fuel : Nat} {bs : List (Variable × Nat)}
    (hstop : fuel = 0 ∨ f.nextVariable = none) (hf : f.isFalse = false) :
    findPoint fuel f = some bs ↔ f.eval (fun _ => 0) = true ∧ [] = bs := by
  rw [findPoint.eq_def]
  rcases hstop with rfl | hv
  · simp [hf]
  · simp [hf, hv]

/-- What is found when there is a variable to try: a cell of it, and a point of what is left. -/
theorem findPoint_succ {f : Formula} {v : Variable} {fuel : Nat} (hf : f.isFalse = false)
    (hv : f.nextVariable = some v)
    (hsound : ∀ g bs, findPoint fuel g = some bs → g.eval (Model.mk bs).assignment = true) :
    findPoint (fuel + 1) f =
      ((f.cells v).findSome? fun x => (findPoint fuel (f.restrict v x)).map (x, ·)).map
        fun p => (v, p.1) :: p.2 := by
  -- A cell is skipped only if it makes the formula false, so nothing is found in what is left there.
  have hskip : ∀ x, (f.valueAt v x == some false) = true → findPoint fuel (f.restrict v x) = none := by
    intro x hx
    cases hfound : findPoint fuel (f.restrict v x) with
    | none => rfl
    | some bs =>
      have htrue := hsound _ _ hfound
      rw [eval_restrict, eval_of_valueAt _ (by simpa using hx)] at htrue
      cases htrue
  rw [findPoint.eq_def]
  simp only [hf, hv, Bool.false_eq_true, if_false]
  rw [tryCells_eq_findSome? hskip (by simp)]

/-- Whatever the fuel, a point that is found makes the formula true, and its values fit. -/
theorem findPoint_sound (fuel : Nat) (f : Formula) (bs : List (Variable × Nat))
    (h : findPoint fuel f = some bs) :
    f.eval (Model.mk bs).assignment = true ∧ ∀ b ∈ bs, b.2 < b.1.modulus := by
  induction fuel generalizing f bs with
  | zero =>
    cases hf : f.isFalse with
    | true => simp [findPoint_of_isFalse 0 hf] at h
    | false =>
      obtain ⟨htrue, rfl⟩ := (findPoint_eq_some_of_stop (Or.inl rfl) hf).mp h
      exact ⟨htrue, by simp⟩
  | succ fuel ih =>
    cases hf : f.isFalse with
    | true => simp [findPoint_of_isFalse _ hf] at h
    | false =>
      cases hv : f.nextVariable with
      | none =>
        obtain ⟨htrue, rfl⟩ := (findPoint_eq_some_of_stop (Or.inr hv) hf).mp h
        exact ⟨htrue, by simp⟩
      | some v =>
        rw [findPoint_succ hf hv fun g bs hg => (ih g bs hg).1, Option.map_eq_some_iff] at h
        obtain ⟨⟨x, rest⟩, hfind, rfl⟩ := h
        obtain ⟨c, hc, hmap⟩ := List.exists_of_findSome?_eq_some hfind
        obtain ⟨bs, hbs, heq⟩ := Option.map_eq_some_iff.mp hmap
        cases heq
        obtain ⟨htrue, hfit⟩ := ih _ _ hbs
        refine ⟨by rw [Model.assignment_cons, ← eval_restrict]; exact htrue, ?_⟩
        intro b hb
        rcases List.mem_cons.mp hb with rfl | hb
        · exact lt_modulus_of_mem_cells hc
        · exact hfit b hb

theorem findPoint_complete (fuel : Nat) (f : Formula) (hfuel : f.vars.length ≤ fuel)
    {σ : Assignment} (hσ : σ.InWidth) (htrue : f.eval σ = true) : findPoint fuel f ≠ none := by
  induction fuel generalizing f with
  | zero =>
    have hnil : f.vars = [] := List.eq_nil_of_length_eq_zero (by omega)
    have hzero := eval_zero_of_nextVariable (nextVariable_eq_none_iff.mpr hnil) htrue
    have hsome := (findPoint_eq_some_of_stop (Or.inl rfl) (isFalse_eq_false htrue)).mpr ⟨hzero, rfl⟩
    simp [hsome]
  | succ fuel ih =>
    have hf := isFalse_eq_false htrue
    cases hv : f.nextVariable with
    | none =>
      have hzero := eval_zero_of_nextVariable hv htrue
      simp [(findPoint_eq_some_of_stop (Or.inr hv) hf).mpr ⟨hzero, rfl⟩]
    | some v =>
      -- The cell of the variable's value keeps the formula true, and a point of the rest is found.
      obtain ⟨c, hc, heval⟩ := exists_cell_eval f σ (hσ v)
      rw [Assignment.update_eq_self, htrue, ← eval_restrict] at heval
      have hlt := length_vars_restrict_lt (mem_of_nextVariable hv) c
      have hfound := ih (f.restrict v c) (by omega) heval
      rw [findPoint_succ hf hv fun g bs hg => (findPoint_sound fuel g bs hg).1]
      intro hnone
      rw [Option.map_eq_none_iff, List.findSome?_eq_none_iff] at hnone
      exact hfound (Option.map_eq_none_iff.mp (hnone c hc))

/-- A point that is found makes the formula true, and its values fit. -/
theorem point?_eq_some {f : Formula} {bs : List (Variable × Nat)} (h : f.point? = some bs) :
    f.eval (Model.mk bs).assignment = true ∧ (Model.mk bs).assignment.InWidth := by
  obtain ⟨htrue, hfit⟩ := findPoint_sound _ _ _ h
  exact ⟨htrue, Model.assignment_inWidth hfit⟩

/-- No point is found exactly if there is none. -/
theorem point?_eq_none_iff {f : Formula} : f.point? = none ↔ ¬f.Satisfiable := by
  constructor
  · rintro h ⟨σ, hσ, htrue⟩
    exact findPoint_complete _ _ (Nat.le_refl _) hσ htrue h
  · intro h
    cases hp : f.point? with
    | none => rfl
    | some bs => exact absurd ⟨_, (point?_eq_some hp).2, (point?_eq_some hp).1⟩ h

/-! ## Dependence -/

theorem differ_satisfiable_iff {f g : Formula} :
    (f.differ g).Satisfiable ↔ ∃ σ : Assignment, σ.InWidth ∧ f.eval σ ≠ g.eval σ := by
  simp [Satisfiable]

/-- A formula that is found not to depend on a variable has one value for all values of it. -/
theorem eval_update_of_not_dependsOn {f : Formula} {v : Variable} (h : f.dependsOn v = false)
    {σ : Assignment} (hσ : σ.InWidth) {x : Nat} (hx : x < v.modulus) :
    f.eval (σ.update v x) = f.eval σ := by
  have hnone : ∀ c ∈ f.cells v, ¬((f.restrict v 0).differ (f.restrict v c)).Satisfiable := by
    have htried : ((f.restrict v 0).differ (f.restrict v 0)).point? = none :=
      point?_eq_none_iff.mpr (by simp [differ_satisfiable_iff])
    rw [dependsOn, tryCells_eq_findSome? (by simp) (by simpa using htried), Option.isSome_eq_false_iff,
      Option.isNone_iff_eq_none, List.findSome?_eq_none_iff] at h
    intro c hc
    exact point?_eq_none_iff.mp (Option.map_eq_none_iff.mp (h c hc))
  -- Every value of the variable gives the value of the formula at zero.
  have hzero : ∀ y < v.modulus, f.eval (σ.update v y) = f.eval (σ.update v 0) := by
    intro y hy
    obtain ⟨c, hc, heval⟩ := exists_cell_eval f σ hy
    have hsame := hnone c hc
    simp only [differ_satisfiable_iff, eval_restrict, not_exists, not_and, not_not] at hsame
    rw [← heval, hsame σ hσ]
  have hself := hzero (σ v) (hσ v)
  rw [Assignment.update_eq_self] at hself
  rw [hzero x hx, hself]

/-- Assignments that agree outside a list of variables, and in it wherever the formula depends on the
variable, give the formula the same value. -/
theorem eval_eq_of_agree_outside {f : Formula} {σ τ : Assignment} (hσ : σ.InWidth) (hτ : τ.InWidth)
    {vs : List Variable} (hin : ∀ v ∈ vs, f.dependsOn v = true → σ v = τ v)
    (hout : ∀ v ∈ f.vars, v ∉ vs → σ v = τ v) : f.eval σ = f.eval τ := by
  -- The variables of the list are changed to their other values one after the other.
  induction vs generalizing σ with
  | nil => exact eval_congr f fun v hv => hout v (mem_vars.mpr hv) (by simp)
  | cons u us ih =>
    have hu : f.eval (σ.update u (τ u)) = f.eval σ := by
      cases hd : f.dependsOn u with
      | true => rw [← hin u (by simp) hd, Assignment.update_eq_self]
      | false => exact eval_update_of_not_dependsOn hd hσ (hτ u)
    have hvalue : ∀ v, σ v = τ v → σ.update u (τ u) v = τ v := by
      intro v hv
      by_cases e : v = u
      · subst e; simp
      · rw [Assignment.update_of_ne σ _ e, hv]
    rw [← hu]
    refine ih (hσ.update (hτ u)) (fun v hv hd => hvalue v (hin v (by simp [hv]) hd)) ?_
    intro v hv hnot
    by_cases e : v = u
    · subst e; simp
    · exact hvalue v (hout v hv (by simp [e, hnot]))

theorem eval_eq_of_agree {f : Formula} {σ τ : Assignment} (hσ : σ.InWidth) (hτ : τ.InWidth)
    (h : ∀ v ∈ f.vars, f.dependsOn v = true → σ v = τ v) : f.eval σ = f.eval τ :=
  eval_eq_of_agree_outside hσ hτ h fun _ hv hnot => absurd hv hnot

end Formula

end FirewallPolicy
