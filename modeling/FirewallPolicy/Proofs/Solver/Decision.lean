import FirewallPolicy.Proofs.Solver.Points
import FirewallPolicy.Solver.Session

/-!
What is asked of a solver, and that the library's own solver does it.

A solver is correct (`Solver.Correct`) if it denies only formulas that no values make true, and if
the models it gives force the formula (`Model.Forces`): they bind variables of the formula to values
that fit, and the variables they leave free do not matter. It may still answer that it does not
know, unless it is decisive (`Solver.Decisive`).

The library's solver finds one point and binds, conjunct by conjunct, the variables on which what is
left of the conjunct depends (`bindParts`). An assignment that agrees with the point on these gives
each conjunct the value it has at the point (`eval_of_agree_bindParts`).

Proved:
- `exact_correct`, `exact_decisive`: the library's solver is correct and always answers;
- `check_exact`: a session that asks it decides every formula in which no hole occurs, and refuses
  every other without counting the query.
-/

namespace FirewallPolicy

namespace Formula

/-! ## Occurrence -/

inductive PartOf (g : Formula) : Formula → Prop
  | self : PartOf g g
  | all {p : Formula} {parts : List Formula} : p ∈ parts → PartOf g p → PartOf g (all parts)
  | any {p : Formula} {parts : List Formula} : p ∈ parts → PartOf g p → PartOf g (any parts)
  | not {operand : Formula} : PartOf g operand → PartOf g (not operand)

mutual

theorem hasHole_iff : ∀ f : Formula, f.hasHole = true ↔ hole.PartOf f
  | const _ => ⟨fun h => by simp [hasHole] at h, fun h => by cases h⟩
  | inRange _ _ _ => ⟨fun h => by simp [hasHole] at h, fun h => by cases h⟩
  | equals _ _ => ⟨fun h => by simp [hasHole] at h, fun h => by cases h⟩
  | all parts => by
    rw [hasHole, anyHole_iff parts]
    exact ⟨fun ⟨p, hp, h⟩ => .all hp h, fun h => by cases h with | all hp h => exact ⟨_, hp, h⟩⟩
  | any parts => by
    rw [hasHole, anyHole_iff parts]
    exact ⟨fun ⟨p, hp, h⟩ => .any hp h, fun h => by cases h with | any hp h => exact ⟨_, hp, h⟩⟩
  | not operand => by
    rw [hasHole, hasHole_iff operand]
    exact ⟨.not, fun h => by cases h with | not h => exact h⟩
  | hole => ⟨fun _ => .self, fun _ => by simp [hasHole]⟩

theorem anyHole_iff : ∀ parts : List Formula, anyHole parts = true ↔ ∃ p ∈ parts, hole.PartOf p
  | [] => by simp [anyHole]
  | p :: ps => by simp [anyHole, hasHole_iff p, anyHole_iff ps]

end

/-! ## Binding what the conjuncts depend on -/

theorem eval_conjuncts (f : Formula) (σ : Assignment) : f.conjuncts.all (eval σ) = f.eval σ := by
  cases f <;> simp [conjuncts]

/-- Putting in values that an assignment has anyway changes nothing there. -/
theorem eval_restrictBy {f : Formula} {σ : Assignment} {bound : List (Variable × Nat)}
    (h : ∀ b ∈ bound, σ b.1 = b.2) : (f.restrictBy bound).eval σ = f.eval σ := by
  induction bound generalizing f with
  | nil => rfl
  | cons b bs ih =>
    have hb : σ.update b.1 b.2 = σ := by rw [← h b (by simp), Assignment.update_eq_self]
    have hbs := ih (f := f.restrict b.1 b.2) fun c hc => h c (by simp [hc])
    rw [eval_restrict, hb] at hbs
    exact hbs

theorem mem_fields_restrictBy {f : Formula} {bound : List (Variable × Nat)} {v : Variable}
    (h : v ∈ (f.restrictBy bound).fields) : v ∈ f.fields := by
  induction bound generalizing f with
  | nil => exact h
  | cons b bs ih => exact (mem_fields_restrict f (ih h)).1

theorem subset_bindParts (point : Assignment) (parts : List Formula) (bound : List (Variable × Nat)) :
    bound ⊆ bindParts point parts bound := by
  induction parts generalizing bound with
  | nil => exact fun b hb => hb
  | cons part rest ih =>
    intro b hb
    exact ih _ (List.mem_append_left _ hb)

theorem bindParts_of_point {point : Assignment} {parts : List Formula}
    {bound : List (Variable × Nat)} {b : Variable × Nat} (hb : b ∈ bindParts point parts bound) :
    b ∈ bound ∨ (b.1 ∈ fieldsOfAll parts ∧ b.2 = point b.1) := by
  induction parts generalizing bound with
  | nil => exact Or.inl hb
  | cons part rest ih =>
    rcases ih hb with h | ⟨hmem, hval⟩
    · rcases List.mem_append.mp h with h | h
      · exact Or.inl h
      · obtain ⟨v, hv, rfl⟩ := List.mem_map.mp h
        have hpart := mem_fields_restrictBy (mem_vars.mp (List.mem_filter.mp hv).1)
        exact Or.inr ⟨by simp [fieldsOfAll, hpart], rfl⟩
    · exact Or.inr ⟨by simp [fieldsOfAll, hmem], hval⟩

/-- An assignment that agrees with the point on all that is bound gives every part the value it has
at the point. -/
theorem eval_of_agree_bindParts {point σ : Assignment} (hpoint : point.InWidth) (hσ : σ.InWidth)
    {parts : List Formula} {bound : List (Variable × Nat)} (hbound : ∀ b ∈ bound, b.2 = point b.1)
    (hagree : ∀ b ∈ bindParts point parts bound, σ b.1 = b.2) :
    ∀ part ∈ parts, part.eval σ = part.eval point := by
  induction parts generalizing bound with
  | nil => simp
  | cons first rest ih =>
    -- The variables on which what is left of the first part depends are bound from here on.
    let left := first.restrictBy bound
    let needed := left.vars.filter fun v => left.dependsAt point v || left.dependsOn v
    have hstep : bindParts point (first :: rest) bound =
        bindParts point rest (bound ++ needed.map fun v => (v, point v)) := rfl
    rw [hstep] at hagree
    have hkept := subset_bindParts point rest (bound ++ needed.map fun v => (v, point v))
    have hleft : left.eval σ = left.eval point := by
      refine eval_eq_of_agree hσ hpoint fun v hv hd => ?_
      have hneeded : v ∈ needed := List.mem_filter.mpr ⟨hv, by simp [hd]⟩
      exact hagree (v, point v) (hkept (List.mem_append_right _ (List.mem_map.mpr ⟨v, hneeded, rfl⟩)))
    have hσbound : ∀ b ∈ bound, σ b.1 = b.2 := fun b hb => hagree b (hkept (List.mem_append_left _ hb))
    have hfirst : first.eval σ = first.eval point := by
      rw [← eval_restrictBy hσbound, ← eval_restrictBy fun b hb => (hbound b hb).symm]
      exact hleft
    intro part hpart
    rcases List.mem_cons.mp hpart with rfl | hpart
    · exact hfirst
    · refine ih ?_ hagree part hpart
      intro b hb
      rcases List.mem_append.mp hb with hb | hb
      · exact hbound b hb
      · obtain ⟨v, -, rfl⟩ := List.mem_map.mp hb
        rfl

end Formula

/-! ## Correct solvers -/

/-- The model makes the formula true whatever the variables are that it leaves free. -/
structure Model.Forces (m : Model) (f : Formula) : Prop where
  mem_fields : ∀ b ∈ m.bindings, b.1 ∈ f.fields
  inWidth : ∀ b ∈ m.bindings, b.2 < b.1.modulus
  eval_eq_true : ∀ σ : Assignment, σ.InWidth → Model.Extends σ m → f.eval σ = true

/-- The solver denies only what no values make true, and its models force what it was asked. -/
structure Solver.Correct (solver : Solver) : Prop where
  unsat : ∀ f : Formula, f.hasHole = false → solver f = .unsat → ¬f.Satisfiable
  sat : ∀ (f : Formula) (m : Model), f.hasHole = false → solver f = .sat m → m.Forces f

def Solver.Decisive (solver : Solver) : Prop := ∀ q reason, solver q ≠ .unknown reason

theorem Model.Forces.holds {m : Model} {f : Formula} (h : m.Forces f) (hf : f.hasHole = false) :
    m.holds f = .ok (true, m.complete f) := by
  have htrue := h.eval_eq_true m.assignment (Model.assignment_inWidth h.inWidth) m.extends_assignment
  simp [Model.holds, hf, htrue]

/-! ## The library's solver -/

theorem solve_eq_unsat_iff {f : Formula} : solve f = .unsat ↔ ¬f.Satisfiable := by
  rw [← Formula.point?_eq_none_iff, solve]
  cases f.point? <;> simp

theorem solve_forces {f : Formula} {m : Model} (h : solve f = .sat m) : m.Forces f := by
  cases hp : f.point? with
  | none => simp [solve, hp] at h
  | some bs =>
    obtain ⟨htrue, hwidth⟩ := Formula.point?_eq_some hp
    simp only [solve, hp, Answer.sat.injEq] at h
    subst h
    have hbound : ∀ b ∈ Formula.bindParts (Model.mk bs).assignment f.conjuncts [],
        b.1 ∈ Formula.fieldsOfAll f.conjuncts ∧ b.2 = (Model.mk bs).assignment b.1 := by
      intro b hb
      simpa using Formula.bindParts_of_point hb
    refine ⟨?_, ?_, ?_⟩
    · intro b hb
      obtain ⟨p, hp, hv⟩ := Formula.mem_fieldsOfAll.mp (hbound b hb).1
      exact Formula.mem_fields_of_mem_conjuncts hp hv
    · intro b hb
      rw [(hbound b hb).2]
      exact hwidth b.1
    · intro σ hσ hext
      have hagree : ∀ b ∈ Formula.bindParts (Model.mk bs).assignment f.conjuncts [], σ b.1 = b.2 := by
        intro b hb
        obtain ⟨x, hx⟩ := Model.exists_get?_of_mem (m := ⟨_⟩) hb
        have hval := (hbound _ (Model.mem_bindings_of_get? hx)).2
        rw [hext b.1 x hx, (hbound b hb).2, ← hval]
      have hparts := Formula.eval_of_agree_bindParts hwidth hσ (by simp) hagree
      rw [← Formula.eval_conjuncts, List.all_eq_true] at htrue ⊢
      intro part hpart
      rw [hparts part hpart]
      exact htrue part hpart

theorem exact_correct : Solver.exact.Correct :=
  ⟨fun _ _ h => solve_eq_unsat_iff.mp h, fun _ _ _ h => solve_forces h⟩

theorem solve_ne_unknown (f : Formula) (reason : String) : solve f ≠ .unknown reason := by
  unfold solve
  split <;> simp

theorem exact_decisive : Solver.exact.Decisive := solve_ne_unknown

namespace Session

theorem check_of_hole (s : Session) (solver : Solver) {f : Formula} (h : f.hasHole = true) :
    s.check solver f = (.error .hole, s) := by
  simp [check, Solver.ask, h]

theorem check_of_unsat (s : Session) {solver : Solver} {f : Formula} (hf : f.hasHole = false)
    (h : solver f = .unsat) : s.check solver f = (.ok none, ⟨s.queries + 1⟩) := by
  simp [check, Solver.ask, hf, h]

theorem check_of_sat (s : Session) {solver : Solver} {f : Formula} {m : Model}
    (hf : f.hasHole = false) (h : solver f = .sat m) :
    s.check solver f = (.ok (some m), ⟨s.queries + 1⟩) := by
  simp [check, Solver.ask, hf, h]

/-- What a session answers, at whatever point it is asked: a formula in which a hole occurs is
refused and not counted; any other is denied if no values make it true, and else there is a model
that forces it, in which it then holds. -/
theorem check_exact (s : Session) (f : Formula) :
    (Formula.hole.PartOf f → s.check .exact f = (.error .hole, s)) ∧
    (¬Formula.hole.PartOf f → ¬f.Satisfiable →
      s.check .exact f = (.ok none, ⟨s.queries + 1⟩)) ∧
    (¬Formula.hole.PartOf f → f.Satisfiable →
      ∃ m : Model, s.check .exact f = (.ok (some m), ⟨s.queries + 1⟩) ∧ m.Forces f ∧
        m.holds f = .ok (true, m.complete f)) := by
  refine ⟨fun hpart => ?_, fun hpart hunsat => ?_, fun hpart hsat => ?_⟩
  · exact s.check_of_hole _ ((Formula.hasHole_iff f).mpr hpart)
  · rw [← Formula.hasHole_iff, Bool.not_eq_true] at hpart
    exact s.check_of_unsat hpart (solve_eq_unsat_iff.mpr hunsat)
  · rw [← Formula.hasHole_iff, Bool.not_eq_true] at hpart
    cases hsolve : solve f with
    | unsat => exact absurd hsat (solve_eq_unsat_iff.mp hsolve)
    | unknown reason => exact absurd hsolve (solve_ne_unknown f reason)
    | sat m =>
      have hforces := solve_forces hsolve
      exact ⟨m, s.check_of_sat hpart hsolve, hforces, hforces.holds hpart⟩

end Session

end FirewallPolicy
