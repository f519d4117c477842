import FirewallPolicy.Solver.Cells

/-!
Which variable of a formula to try next.

Any variable that occurs would do (`mem_of_nextVariable`); the choice only makes the search short. A
variable to which a conjunct leaves a single cell costs no branching. Of the others, one with few
cells has few branches, and one in short conjuncts makes them shorter still.
-/

namespace FirewallPolicy.Formula

def conjuncts : Formula → List Formula
  | all parts => parts
  | f => [f]

def soleVariable (f : Formula) : Option Variable :=
  match f.fields with
  | [] => none
  | v :: rest => if rest.all (· == v) then some v else none

/-- The variable of a formula that has only one and is false in all its cells but one. -/
def forcedVariable (f : Formula) : Option Variable :=
  f.soleVariable.filter fun v =>
    ((f.cells v).filter fun x => f.valueAt v x != some false).length ≤ 1

/-- How much a conjunct with so many comparisons counts. -/
def weight (comparisons : Nat) : Nat := Nat.pow 4 (10 - comparisons)

/-- How much the conjuncts in which the variable occurs count. -/
def urgency (parts : List (List Variable)) (v : Variable) : Nat :=
  parts.foldl (fun n fields => if fields.contains v then n + weight fields.length else n) 0

def leastBy {α : Type} (measure : α → Nat) (xs : List α) : List α :=
  let measured := xs.map fun x => (x, measure x)
  match (measured.map (·.2)).min? with
  | none => []
  | some least => (measured.filter (·.2 == least)).map (·.1)

def greatestBy {α : Type} (measure : α → Nat) : α → Nat → List α → α
  | best, _, [] => best
  | best, most, x :: rest =>
    let m := measure x
    if most < m then greatestBy measure x m rest else greatestBy measure best most rest

/-- Of some variables one with the fewest cells, and of these one in short conjuncts. -/
def narrowest (f : Formula) (v : Variable) (vs : List Variable) : Variable :=
  match leastBy (fun u => (f.cells u).length) (v :: vs) with
  | [] => v
  | [u] => u
  | u :: us =>
    let measure := urgency (f.conjuncts.map fields)
    greatestBy measure u (measure u) us

def nextVariable (f : Formula) : Option Variable :=
  match f.vars with
  | [] => none
  | [v] => some v
  | v :: vs => some ((f.conjuncts.findSome? forcedVariable).getD (f.narrowest v vs))

theorem mem_vars {f : Formula} {v : Variable} : v ∈ f.vars ↔ v ∈ f.fields := List.mem_eraseDups

theorem mem_of_mem_leastBy {α : Type} {measure : α → Nat} {xs : List α} {x : α}
    (h : x ∈ leastBy measure xs) : x ∈ xs := by
  simp only [leastBy] at h
  split at h
  · cases h
  · simp only [List.mem_map, List.mem_filter] at h
    obtain ⟨p, ⟨⟨y, hy, rfl⟩, -⟩, rfl⟩ := h
    exact hy

theorem greatestBy_mem {α : Type} (measure : α → Nat) (best : α) (most : Nat) (xs : List α) :
    greatestBy measure best most xs ∈ best :: xs := by
  induction xs generalizing best most with
  | nil => simp [greatestBy]
  | cons x rest ih =>
    simp only [greatestBy]
    split
    · exact List.mem_cons_of_mem _ (ih x _)
    · rcases List.mem_cons.1 (ih best most) with h | h
      · simp [h]
      · simp [h]

theorem narrowest_mem (f : Formula) (v : Variable) (vs : List Variable) :
    f.narrowest v vs ∈ v :: vs := by
  have sub : ∀ u ∈ leastBy (fun u => (f.cells u).length) (v :: vs), u ∈ v :: vs :=
    fun u hu => mem_of_mem_leastBy hu
  unfold narrowest
  split
  · simp
  · rename_i u h
    exact sub u (by simp [h])
  · rename_i u us _ h
    exact sub _ (h ▸ greatestBy_mem _ u _ us)

theorem mem_fields_of_forcedVariable {f : Formula} {v : Variable} (h : f.forcedVariable = some v) :
    v ∈ f.fields := by
  obtain ⟨hs, -⟩ := Option.filter_eq_some_iff.1 h
  unfold soleVariable at hs
  split at hs
  · cases hs
  · rename_i u rest hf
    split at hs
    · rw [hf, ← Option.some.inj hs]; simp
    · cases hs

theorem mem_fields_of_mem_conjuncts {f part : Formula} {v : Variable} (hp : part ∈ f.conjuncts)
    (hv : v ∈ part.fields) : v ∈ f.fields := by
  unfold conjuncts at hp
  split at hp
  · rw [fields]; exact mem_fieldsOfAll.2 ⟨part, hp, hv⟩
  · rw [List.mem_singleton.1 hp] at hv; exact hv

theorem mem_of_nextVariable {f : Formula} {v : Variable} (h : f.nextVariable = some v) :
    v ∈ f.vars := by
  unfold nextVariable at h
  split at h
  · cases h
  · rename_i u hf
    rw [hf, ← Option.some.inj h]; simp
  · rename_i u us _ hf
    rw [← Option.some.inj h]
    cases hforced : f.conjuncts.findSome? forcedVariable with
    | none => rw [hf]; exact narrowest_mem f u us
    | some w =>
      obtain ⟨part, hp, hw⟩ := List.exists_of_findSome?_eq_some hforced
      exact mem_vars.2 (mem_fields_of_mem_conjuncts hp (mem_fields_of_forcedVariable hw))

theorem nextVariable_eq_none_iff {f : Formula} : f.nextVariable = none ↔ f.vars = [] := by
  unfold nextVariable
  split <;> simp_all

end FirewallPolicy.Formula
