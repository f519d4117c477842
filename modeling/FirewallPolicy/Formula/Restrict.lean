import FirewallPolicy.Formula.Eval

/-!
Putting a value in place of a variable.

`restrict` puts a value in place of a variable and works out the constants that this leaves. Its
laws: the value of the restricted formula is the value of the formula at the updated assignment
(`eval_restrict`), and no variable occurs in it but the others of the formula
(`mem_fields_restrict`). `differ` is the formula that exactly one of two is true.
-/

namespace FirewallPolicy.Formula

def isTrue : Formula → Bool
  | const b => b
  | _ => false

def isFalse : Formula → Bool
  | const b => !b
  | _ => false

/-- Negation with constants worked out. -/
def negate : Formula → Formula
  | const b => const !b
  | not f => f
  | f => not f

/-- Conjunction with constants worked out. -/
def meet (parts : List Formula) : Formula :=
  if parts.any isFalse then const false
  else match parts.filter (!·.isTrue) with
    | [] => const true
    | [part] => part
    | rest => all rest

/-- Disjunction with constants worked out. -/
def join (parts : List Formula) : Formula :=
  if parts.any isTrue then const true
  else match parts.filter (!·.isFalse) with
    | [] => const false
    | [part] => part
    | rest => any rest

mutual

def restrict (v : Variable) (x : Nat) : Formula → Formula
  | const b => const b
  | inRange u low high =>
    if u = v then const (decide (v.residue low ≤ x) && decide (x ≤ v.residue high))
    else inRange u low high
  | equals u c => if u = v then const (decide (x = v.residue c)) else equals u c
  | all parts => meet (restrictAll v x parts)
  | any parts => join (restrictAll v x parts)
  | not operand => negate (restrict v x operand)
  | hole => hole

def restrictAll (v : Variable) (x : Nat) : List Formula → List Formula
  | [] => []
  | part :: rest => restrict v x part :: restrictAll v x rest

end

/-! The laws of `restrict`: working out constants keeps the value, and the value of the restricted
formula is the value of the formula at the updated assignment. -/

theorem eval_of_isTrue {f : Formula} (h : f.isTrue = true) (σ : Assignment) : f.eval σ = true := by
  cases f <;> simp_all [isTrue]

theorem eval_of_isFalse {f : Formula} (h : f.isFalse = true) (σ : Assignment) :
    f.eval σ = false := by
  cases f <;> simp_all [isFalse]

@[simp] theorem eval_negate (f : Formula) (σ : Assignment) : f.negate.eval σ = !f.eval σ := by
  cases f <;> simp [negate]

theorem all_filter_isTrue (parts : List Formula) (σ : Assignment) :
    (parts.filter (!·.isTrue)).all (eval σ) = parts.all (eval σ) := by
  induction parts with
  | nil => rfl
  | cons p ps ih =>
    cases h : p.isTrue
    · simp [h, ih]
    · simp [h, ih, eval_of_isTrue h σ]

theorem any_filter_isFalse (parts : List Formula) (σ : Assignment) :
    (parts.filter (!·.isFalse)).any (eval σ) = parts.any (eval σ) := by
  induction parts with
  | nil => rfl
  | cons p ps ih =>
    cases h : p.isFalse
    · simp [h, ih]
    · simp [h, ih, eval_of_isFalse h σ]

@[simp] theorem eval_meet (parts : List Formula) (σ : Assignment) :
    (meet parts).eval σ = parts.all (eval σ) := by
  unfold meet
  split
  · rename_i h
    obtain ⟨p, hp, hf⟩ := List.any_eq_true.1 h
    symm
    simpa using ⟨p, hp, eval_of_isFalse hf σ⟩
  · rw [← all_filter_isTrue parts σ]
    split <;> simp_all

@[simp] theorem eval_join (parts : List Formula) (σ : Assignment) :
    (join parts).eval σ = parts.any (eval σ) := by
  unfold join
  split
  · rename_i h
    obtain ⟨p, hp, ht⟩ := List.any_eq_true.1 h
    symm
    simpa using ⟨p, hp, eval_of_isTrue ht σ⟩
  · rw [← any_filter_isFalse parts σ]
    split <;> simp_all

mutual

theorem eval_restrict (v : Variable) (x : Nat) (σ : Assignment) :
    ∀ f : Formula, (f.restrict v x).eval σ = f.eval (σ.update v x)
  | const _ => by simp [restrict]
  | inRange u low high => by
    by_cases h : u = v
    · subst h; simp [restrict, eval]
    · simp [restrict, eval, h, Assignment.update_of_ne σ x h]
  | equals u c => by
    by_cases h : u = v
    · subst h; simp [restrict, eval]
    · simp [restrict, eval, h, Assignment.update_of_ne σ x h]
  | all parts => by
    rw [restrict, eval_meet, eval_all, ← evalAll_eq_all, ← evalAll_eq_all]
    exact evalAll_restrictAll v x σ parts
  | any parts => by
    rw [restrict, eval_join, eval_any, ← evalAny_eq_any, ← evalAny_eq_any]
    exact evalAny_restrictAll v x σ parts
  | not operand => by simp [restrict, eval_restrict v x σ operand]
  | hole => by simp [restrict, eval]

theorem evalAll_restrictAll (v : Variable) (x : Nat) (σ : Assignment) :
    ∀ parts : List Formula, evalAll σ (restrictAll v x parts) = evalAll (σ.update v x) parts
  | [] => rfl
  | p :: ps => by
    simp [restrictAll, evalAll, eval_restrict v x σ p, evalAll_restrictAll v x σ ps]

theorem evalAny_restrictAll (v : Variable) (x : Nat) (σ : Assignment) :
    ∀ parts : List Formula, evalAny σ (restrictAll v x parts) = evalAny (σ.update v x) parts
  | [] => rfl
  | p :: ps => by
    simp [restrictAll, evalAny, eval_restrict v x σ p, evalAny_restrictAll v x σ ps]

end

theorem mem_fieldsOfAll {u : Variable} {parts : List Formula} :
    u ∈ fieldsOfAll parts ↔ ∃ p ∈ parts, u ∈ p.fields := by
  induction parts with
  | nil => simp [fieldsOfAll]
  | cons p ps ih => simp [fieldsOfAll, ih]

theorem mem_fields_negate {u : Variable} {f : Formula} (h : u ∈ f.negate.fields) :
    u ∈ f.fields := by
  cases f <;> simp_all [negate, fields]

theorem mem_fields_meet {u : Variable} {parts : List Formula} (h : u ∈ (meet parts).fields) :
    u ∈ fieldsOfAll parts := by
  have kept : ∀ q ∈ parts.filter (!·.isTrue), u ∈ q.fields → u ∈ fieldsOfAll parts :=
    fun q hq hu => mem_fieldsOfAll.2 ⟨q, (List.mem_filter.1 hq).1, hu⟩
  unfold meet at h
  split at h
  · simp [fields] at h
  · split at h
    · simp [fields] at h
    · rename_i part hp
      exact kept part (by simp [hp]) h
    · obtain ⟨q, hq, hu⟩ := mem_fieldsOfAll.1 (by simpa [fields] using h)
      exact kept q hq hu

theorem mem_fields_join {u : Variable} {parts : List Formula} (h : u ∈ (join parts).fields) :
    u ∈ fieldsOfAll parts := by
  have kept : ∀ q ∈ parts.filter (!·.isFalse), u ∈ q.fields → u ∈ fieldsOfAll parts :=
    fun q hq hu => mem_fieldsOfAll.2 ⟨q, (List.mem_filter.1 hq).1, hu⟩
  unfold join at h
  split at h
  · simp [fields] at h
  · split at h
    · simp [fields] at h
    · rename_i part hp
      exact kept part (by simp [hp]) h
    · obtain ⟨q, hq, hu⟩ := mem_fieldsOfAll.1 (by simpa [fields] using h)
      exact kept q hq hu

mutual

/-- What is left of a formula has no variable but the others of the formula. -/
theorem mem_fields_restrict {u v : Variable} {x : Nat} :
    ∀ f : Formula, u ∈ (f.restrict v x).fields → u ∈ f.fields ∧ u ≠ v
  | const _, h => by simp [restrict, fields] at h
  | inRange w low high, h => by
    by_cases hw : w = v
    · simp [restrict, hw, fields] at h
    · simp only [restrict, hw, if_false, fields, List.mem_singleton] at h
      exact ⟨by simp [fields, h], fun huv => hw (h ▸ huv)⟩
  | equals w c, h => by
    by_cases hw : w = v
    · simp [restrict, hw, fields] at h
    · simp only [restrict, hw, if_false, fields, List.mem_singleton] at h
      exact ⟨by simp [fields, h], fun huv => hw (h ▸ huv)⟩
  | all parts, h => by
    rw [restrict] at h
    rw [fields]
    exact mem_fieldsOfAll_restrictAll parts (mem_fields_meet h)
  | any parts, h => by
    rw [restrict] at h
    rw [fields]
    exact mem_fieldsOfAll_restrictAll parts (mem_fields_join h)
  | not operand, h => by
    rw [restrict] at h
    rw [fields]
    exact mem_fields_restrict operand (mem_fields_negate h)
  | hole, h => by simp [restrict, fields] at h

theorem mem_fieldsOfAll_restrictAll {u v : Variable} {x : Nat} :
    ∀ parts : List Formula, u ∈ fieldsOfAll (restrictAll v x parts) → u ∈ fieldsOfAll parts ∧ u ≠ v
  | [], h => by simp [restrictAll, fieldsOfAll] at h
  | p :: ps, h => by
    simp only [restrictAll, fieldsOfAll, List.mem_append] at h
    rcases h with h | h
    · obtain ⟨hm, hne⟩ := mem_fields_restrict p h
      exact ⟨by simp [fieldsOfAll, hm], hne⟩
    · obtain ⟨hm, hne⟩ := mem_fieldsOfAll_restrictAll ps h
      exact ⟨by simp [fieldsOfAll, hm], hne⟩

end

/-- Exactly one of the two. -/
def differ (f g : Formula) : Formula :=
  join [meet [f, negate g], meet [negate f, g]]

@[simp] theorem eval_differ (f g : Formula) (σ : Assignment) :
    (differ f g).eval σ = (f.eval σ != g.eval σ) := by
  cases hf : f.eval σ <;> cases hg : g.eval σ <;> simp [differ, hf, hg]

end FirewallPolicy.Formula
