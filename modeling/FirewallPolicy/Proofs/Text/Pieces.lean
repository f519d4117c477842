import Mathlib.Data.List.DropRight
import Mathlib.Data.List.TakeWhile
import FirewallPolicy.Text.Capital
import FirewallPolicy.Text.Split

/-!
Texts put together from pieces, and taken apart again.

Trimming takes nothing from a text with no blank at either end (`trimBy_eq_self_of_ends`), and takes
everything only from blanks (`trim_eq_nil_iff`); what it leaves of a text stays as it is when it is trimmed
again (`trim_trim`). To cut at a single character is what the library does
under the name `List.splitOn` (`split_singleton`).

Proved: `split_join`, pieces without the separator between them are what a text of them is cut into;
`splitOnce_append` and `eq_append_of_splitOnce`, a text is cut at its first mark.
-/

namespace FirewallPolicy.Text

/-! ## Trimming -/

theorem dropWhile_eq_self_of_head {p : Char → Bool} {s : List Char} (h : ∀ c ∈ s.head?, p c = false) :
    s.dropWhile p = s := by
  cases s with
  | nil => rfl
  | cons c rest => simp [h c (by simp)]

theorem trimBy_eq_self_of_ends {p : Char → Bool} {s : List Char} (hfirst : ∀ c ∈ s.head?, p c = false)
    (hlast : ∀ c ∈ s.getLast?, p c = false) : trimBy p s = s := by
  rw [trimBy, dropWhile_eq_self_of_head hfirst, dropWhile_eq_self_of_head, List.reverse_reverse]
  rw [List.head?_reverse]
  exact hlast

theorem trimBy_eq_self {p : Char → Bool} {s : List Char} (h : ∀ c ∈ s, p c = false) :
    trimBy p s = s :=
  trimBy_eq_self_of_ends (fun c hc => h c (List.mem_of_mem_head? hc))
    fun c hc => h c (List.mem_of_getLast? hc)

theorem trim_eq_nil_iff {s : List Char} : trim s = [] ↔ ∀ c ∈ s, isBlank c = true := by
  rw [trim, trimBy, List.reverse_eq_nil_iff, List.dropWhile_eq_nil_iff]
  simp only [List.mem_reverse]
  constructor
  · intro h c hc
    rw [← List.takeWhile_append_dropWhile (p := isBlank) (l := s), List.mem_append] at hc
    rcases hc with hc | hc
    · exact List.mem_takeWhile_imp hc
    · exact h c hc
  · intro h c hc
    exact h c ((List.dropWhile_sublist _).subset hc)

theorem trimBy_trimBy (p : Char → Bool) (s : List Char) : trimBy p (trimBy p s) = trimBy p s := by
  have hkept : ∀ t, trimBy p t = (t.dropWhile p).rdropWhile p := fun _ => rfl
  have hfront : (trimBy p s).dropWhile p = trimBy p s := by
    apply dropWhile_eq_self_of_head
    intro c hc
    obtain ⟨back, hback⟩ := List.rdropWhile_prefix p (l := s.dropWhile p)
    have hfirst : (s.dropWhile p).head? = some c := by
      rw [← hback, List.head?_append, ← hkept, Option.mem_def.mp hc]
      rfl
    have hstop := List.head?_dropWhile_not p s
    rw [hfirst] at hstop
    simpa using hstop
  rw [hkept (trimBy p s), hfront, hkept s, List.rdropWhile_idempotent]

theorem trimBy_append {p : Char → Bool} {front core back : List Char} (hfront : ∀ c ∈ front, p c = true)
    (hcore : ∀ c ∈ core, p c = false) (hback : ∀ c ∈ back, p c = true) :
    trimBy p (front ++ core ++ back) = core := by
  have hleft : (front ++ core ++ back).dropWhile p = (core ++ back).dropWhile p := by
    rw [List.append_assoc, List.dropWhile_append_of_pos hfront]
  rw [trimBy, hleft]
  cases core with
  | nil =>
    rw [List.nil_append, List.dropWhile_eq_nil_iff.mpr hback]
    rfl
  | cons c rest =>
    have hreverse : ∀ d ∈ back.reverse, p d = true := fun d hd => hback d (List.mem_reverse.mp hd)
    have hkept : (c :: rest).reverse.dropWhile p = (c :: rest).reverse :=
      dropWhile_eq_self_of_head fun d hd => hcore d (List.mem_reverse.mp (List.mem_of_mem_head? hd))
    rw [List.cons_append, List.dropWhile_cons_of_neg (by simp [hcore c]), ← List.cons_append, List.reverse_append,
      List.dropWhile_append_of_pos hreverse, hkept, List.reverse_reverse]

theorem trim_trim (s : List Char) : trim (trim s) = trim s := trimBy_trimBy isBlank s

/-- A first character that is no blank stays in front. -/
theorem trim_cons {c : Char} (hc : isBlank c = false) (s : List Char) :
    ∃ rest, trim (c :: s) = c :: rest := by
  have hfront : (c :: s).dropWhile isBlank = c :: s := by simp [hc]
  have hback : (s.reverse ++ [c]).dropWhile isBlank = s.reverse.dropWhile isBlank ++ [c] := by
    rw [List.dropWhile_append]
    split
    · rename_i hall
      rw [List.isEmpty_iff.mp hall]
      simp [hc]
    · rfl
  refine ⟨(s.reverse.dropWhile isBlank).reverse, ?_⟩
  rw [trim, trimBy, hfront, List.reverse_cons, hback]
  simp

theorem trim_cons_of_blank {c : Char} (hc : isBlank c = true) (s : List Char) :
    trim (c :: s) = trim s := by
  rw [trim, trimBy, List.dropWhile_cons_of_pos hc]
  rfl

/-- A text is not the word "any" if its first character is neither a blank nor the first of it. -/
theorem isAny_cons {c : Char} (hc : isBlank c = false) (ha : c.toLower ≠ 'a') (s : List Char) :
    isAny (c :: s) = false := by
  obtain ⟨rest, hrest⟩ := trim_cons hc s
  simp [isAny, hrest, ha]

/-! ## Joining -/

theorem mem_of_mem_intercalate {separator : List Char} {pieces : List (List Char)} {c : Char}
    (h : c ∈ separator.intercalate pieces) : c ∈ separator ∨ ∃ piece ∈ pieces, c ∈ piece := by
  induction pieces with
  | nil => simp at h
  | cons piece rest ih =>
    cases rest with
    | nil => exact Or.inr ⟨piece, by simp, by simpa using h⟩
    | cons next more =>
      rw [List.intercalate_cons_cons, List.mem_append, List.mem_append] at h
      rcases h with (h | h) | h
      · exact Or.inr ⟨piece, by simp, h⟩
      · exact Or.inl h
      · rcases ih h with h | ⟨p, hp, hc⟩
        · exact Or.inl h
        · exact Or.inr ⟨p, List.mem_cons_of_mem _ hp, hc⟩

theorem mem_intercalate_of_mem {separator piece : List Char} {pieces : List (List Char)} {c : Char}
    (hpiece : piece ∈ pieces) (hc : c ∈ piece) : c ∈ separator.intercalate pieces := by
  induction pieces with
  | nil => cases hpiece
  | cons first rest ih =>
    cases rest with
    | nil => simpa [List.mem_singleton.mp hpiece] using hc
    | cons next more =>
      rw [List.intercalate_cons_cons, List.mem_append, List.mem_append]
      rcases List.mem_cons.mp hpiece with rfl | hrest
      · exact Or.inl (Or.inl hc)
      · exact Or.inr (ih hrest)

theorem head?_intercalate (separator : List Char) {first : List Char} (hfirst : first ≠ [])
    (rest : List (List Char)) :
    (separator.intercalate (first :: rest)).head? = first.head? := by
  obtain ⟨c, more, rfl⟩ := List.exists_cons_of_ne_nil hfirst
  cases rest <;> simp

theorem exists_getLast?_intercalate (separator : List Char) {pieces : List (List Char)}
    (hpieces : ∀ piece ∈ pieces, piece ≠ []) (hne : pieces ≠ []) :
    ∃ piece ∈ pieces, (separator.intercalate pieces).getLast? = piece.getLast? := by
  induction pieces with
  | nil => exact absurd rfl hne
  | cons first rest ih =>
    cases rest with
    | nil => exact ⟨first, by simp, by simp⟩
    | cons next more =>
      obtain ⟨piece, hpiece, hlast⟩ :=
        ih (fun piece hpiece => hpieces piece (List.mem_cons_of_mem _ hpiece)) (by simp)
      refine ⟨piece, List.mem_cons_of_mem _ hpiece, ?_⟩
      have hsome : piece.getLast? ≠ none := by
        simpa using hpieces piece (List.mem_cons_of_mem _ hpiece)
      rw [List.intercalate_cons_cons, List.getLast?_append, hlast]
      exact Option.or_of_isSome (Option.isSome_iff_ne_none.mpr hsome)

/-! ## Cutting at one character -/

/-- To cut at a separator of one character is to split on the character. -/
theorem split_singleton (c : Char) (s : List Char) : split [c] s = s.splitOn c := by
  unfold split
  induction s with
  | nil => rfl
  | cons d rest ih =>
    rw [splitFrom, List.splitOn_cons_eq_if_modifyHead, ih]
    by_cases h : d = c
    · subst h
      simp [List.isPrefixOf, ih]
    · obtain ⟨piece, more, hpieces⟩ := List.exists_cons_of_ne_nil (List.splitOn_ne_nil c rest)
      simp [List.isPrefixOf, h, Ne.symm h, hpieces, consHead]

/-- A text of pieces is cut into the pieces. -/
theorem split_join {c : Char} {pieces : List (List Char)} (hpieces : ∀ piece ∈ pieces, c ∉ piece)
    (hne : pieces ≠ []) : split [c] ([c].intercalate pieces) = pieces := by
  rw [split_singleton]
  exact List.splitOn_intercalate c hpieces hne

/-- The pieces of a text make it again. -/
theorem join_split (c : Char) (s : List Char) : [c].intercalate (split [c] s) = s := by
  rw [split_singleton]
  exact List.intercalate_splitOn c

theorem split_pair {c : Char} {left right : List Char} (hleft : c ∉ left) (hright : c ∉ right) :
    split [c] (left ++ c :: right) = [left, right] := by
  have hjoin : [c].intercalate [left, right] = left ++ c :: right := by simp
  rw [← hjoin]
  refine split_join ?_ (by simp)
  simp [hleft, hright]

theorem splitOnce_eq_none_iff {mark : Char} {s : List Char} : splitOnce mark s = none ↔ mark ∉ s := by
  unfold splitOnce
  constructor
  · intro h
    split at h
    · rename_i hall
      intro hmem
      have hmark := List.dropWhile_eq_nil_iff.mp hall mark hmem
      simp at hmark
    · cases h
  · intro h
    have hall : ∀ c ∈ s, (c != mark) = true := fun c hc => bne_iff_ne.mpr fun heq => h (heq ▸ hc)
    rw [List.dropWhile_eq_nil_iff.mpr hall]

theorem splitOnce_append {mark : Char} {before : List Char} (h : mark ∉ before) (after : List Char) :
    splitOnce mark (before ++ mark :: after) = some (before, after) := by
  have hall : ∀ c ∈ before, (c != mark) = true := fun c hc => bne_iff_ne.mpr fun heq => h (heq ▸ hc)
  rw [splitOnce, List.dropWhile_append_of_pos hall, List.takeWhile_append_of_pos hall]
  simp

theorem eq_append_of_splitOnce {mark : Char} {s before after : List Char}
    (h : splitOnce mark s = some (before, after)) : s = before ++ mark :: after ∧ mark ∉ before := by
  unfold splitOnce at h
  split at h
  · cases h
  · rename_i c rest hrest
    cases h
    have hc : c = mark := by
      have hstop := List.head?_dropWhile_not (· != mark) s
      rw [hrest] at hstop
      simpa using hstop
    refine ⟨?_, fun hmem => ?_⟩
    · have hjoin := List.takeWhile_append_dropWhile (p := (· != mark)) (l := s)
      rw [hrest, hc] at hjoin
      exact hjoin.symm
    · have hmark := List.mem_takeWhile_imp hmem
      simp at hmark

end FirewallPolicy.Text
