import FirewallPolicy.Proofs.Address.Dotted

/-!
The texts of IPv6 addresses and networks.

What such a text looks like stands here apart from how it is recognised. Pieces between colons stand for groups
(`Groups`): each for one, and a dotted text at the end for two. A text is eight groups, or at most seven around a
double colon (`ColonText`); a scope may follow an address (`ColonAddress`), and a prefix length makes a network of it
(`ColonNetwork`).

To recognise them, a text is cut at its colons. A side of the gap without groups leaves an empty piece there
(`piecesOf`), and a dotted text is replaced by two groups before they are counted.

Proved: `isColonAddress_iff` and `isColonNetwork_iff`, these texts and no others are recognised.
-/

namespace FirewallPolicy.Address

open Text

/-! ## Texts -/

inductive Groups : List (List Char) → Nat → Prop
  | plain {pieces : List (List Char)} : (∀ g ∈ pieces, isGroup g = true) → Groups pieces pieces.length
  /-- A dotted text at the end stands for two. -/
  | dotted {pieces : List (List Char)} (a : Address) : (∀ g ∈ pieces, isGroup g = true) →
      Groups (pieces ++ [a.text.toList]) (pieces.length + 2)

inductive ColonText : List Char → Prop
  | full {pieces : List (List Char)} : Groups pieces 8 → ColonText ([':'].intercalate pieces)
  | gap {before after : List (List Char)} {n : Nat} : (∀ g ∈ before, isGroup g = true) → Groups after n →
      before.length + n ≤ 7 → ColonText ([':'].intercalate before ++ ':' :: ':' :: [':'].intercalate after)

inductive ColonAddress : List Char → Prop
  | plain {s : List Char} : ColonText s → ColonAddress s
  | inScope {s scope : List Char} : ColonText s → scope ≠ [] → '%' ∉ scope → '/' ∉ scope →
      ColonAddress (s ++ '%' :: scope)

inductive ColonNetwork : List Char → Prop
  | intro {s digits : List Char} : ColonAddress s → digits ≠ [] → (∀ c ∈ digits, c.isDigit = true) →
      digits.length ≤ Numeral.maxDigits → Nat.ofDigitChars 10 digits 0 ≤ 128 → ColonNetwork (s ++ '/' :: digits)

/-! ## Characters -/

theorem not_mem_of_isGroup {g : List Char} (hg : isGroup g = true) {c : Char} (hc : isHexDigit c = false) :
    c ∉ g := by
  intro hmem
  simp only [isGroup, Bool.and_eq_true, List.all_eq_true] at hg
  rw [hg.2 c hmem] at hc
  cases hc

theorem ne_nil_of_isGroup {g : List Char} (hg : isGroup g = true) : g ≠ [] := by
  rintro rfl
  cases hg

theorem not_mem_text (a : Address) {c : Char} (hdigit : c.isDigit = false) (hdot : c ≠ '.') :
    c ∉ a.text.toList := by
  intro hmem
  rcases a.isDigit_or_dot_of_mem_text hmem with h | h
  · rw [h] at hdigit
    cases hdigit
  · exact hdot h

theorem dot_mem_text (a : Address) : '.' ∈ a.text.toList := by
  rw [toList_text]
  simp [octets]

theorem Groups.not_mem {pieces : List (List Char)} {n : Nat} (h : Groups pieces n) {c : Char}
    (hhex : isHexDigit c = false) (hdot : c ≠ '.') : ∀ piece ∈ pieces, c ∉ piece := by
  have hdigit : c.isDigit = false := by
    simp only [isHexDigit, Bool.or_eq_false_iff] at hhex
    exact hhex.1.1
  intro piece hpiece
  cases h with
  | plain hgroups => exact not_mem_of_isGroup (hgroups piece hpiece) hhex
  | dotted a hgroups =>
    rcases List.mem_append.mp hpiece with hpiece | hpiece
    · exact not_mem_of_isGroup (hgroups piece hpiece) hhex
    · rw [List.mem_singleton.mp hpiece]
      exact not_mem_text a hdigit hdot

theorem ColonText.not_mem {s : List Char} (h : ColonText s) {c : Char} (hhex : isHexDigit c = false)
    (hdot : c ≠ '.') (hcolon : c ≠ ':') : c ∉ s := by
  have hjoin : ∀ {pieces : List (List Char)}, (∀ piece ∈ pieces, c ∉ piece) →
      c ∉ [':'].intercalate pieces := by
    intro pieces hpieces hmem
    rcases mem_of_mem_intercalate hmem with hmem | ⟨piece, hpiece, hmem⟩
    · exact hcolon (List.mem_singleton.mp hmem)
    · exact hpieces piece hpiece hmem
  cases h with
  | full hpieces => exact hjoin (hpieces.not_mem hhex hdot)
  | gap hbefore hafter _ =>
    have hleft := hjoin fun g hg => not_mem_of_isGroup (hbefore g hg) hhex
    have hright := hjoin (hafter.not_mem hhex hdot)
    simp [hleft, hright, hcolon]

theorem ColonText.colon_mem {s : List Char} (h : ColonText s) : ':' ∈ s := by
  cases h with
  | @full pieces hpieces =>
    have htwo : 2 ≤ pieces.length := by
      generalize height : 8 = n at hpieces
      cases hpieces with
      | plain _ => omega
      | dotted a _ =>
        rw [List.length_append, List.length_singleton]
        omega
    obtain ⟨first, second, rest, rfl⟩ : ∃ first second rest, pieces = first :: second :: rest := by
      match pieces, htwo with
      | first :: second :: rest, _ => exact ⟨first, second, rest, rfl⟩
    simp
  | gap _ _ _ => simp

theorem ColonAddress.colon_mem {s : List Char} (h : ColonAddress s) : ':' ∈ s := by
  cases h with
  | plain htext => exact htext.colon_mem
  | inScope htext _ _ _ => exact List.mem_append_left _ htext.colon_mem

theorem ColonAddress.slash_not_mem {s : List Char} (h : ColonAddress s) : '/' ∉ s := by
  cases h with
  | plain htext => exact htext.not_mem (by decide) (by decide) (by decide)
  | inScope htext _ _ hscope =>
    have hslash := htext.not_mem (c := '/') (by decide) (by decide) (by decide)
    simp [hslash, hscope]

/-! ## Cutting at the colons -/

def piecesOf : List (List Char) → List (List Char)
  | [] => [[]]
  | groups => groups

theorem split_groups {groups : List (List Char)} (h : ∀ g ∈ groups, ':' ∉ g) :
    split [':'] ([':'].intercalate groups) = piecesOf groups := by
  cases groups with
  | nil => rfl
  | cons g rest => exact split_join h (by simp)

/-- The gap is an empty piece. -/
theorem split_gap {before after : List (List Char)} (hbefore : ∀ g ∈ before, ':' ∉ g)
    (hafter : ∀ g ∈ after, ':' ∉ g) :
    split [':'] ([':'].intercalate before ++ ':' :: ':' :: [':'].intercalate after) =
      piecesOf before ++ [] :: piecesOf after := by
  have hright : split [':'] (':' :: [':'].intercalate after) = [] :: piecesOf after := by
    rw [← split_groups hafter, split_singleton, split_singleton]
    exact List.splitOn_append_cons_self [] _
  rw [← hright, ← split_groups hbefore]
  simp only [split_singleton]
  exact List.splitOn_append_cons_self _ _

theorem split_injective {s t : List Char} (h : split [':'] s = split [':'] t) : s = t := by
  rw [← join_split ':' s, h, join_split]

theorem sideOfGap_piecesOf {groups : List (List Char)} (h : ∀ g ∈ groups, isGroup g = true) :
    sideOfGap (piecesOf groups) = groups := by
  cases groups with
  | nil => rfl
  | cons g rest =>
    obtain ⟨c, more, rfl⟩ := List.exists_cons_of_ne_nil (ne_nil_of_isGroup (h g (by simp)))
    rfl

theorem piecesOf_sideOfGap {pieces : List (List Char)} (h : pieces ≠ []) :
    piecesOf (sideOfGap pieces) = pieces := by
  unfold sideOfGap
  split
  · rfl
  · cases pieces with
    | nil => exact absurd rfl h
    | cons g rest => rfl

/-! ## Counting the groups -/

/-- The gap is the first empty piece behind the first. -/
theorem areGroups_of_gap (first : List Char) {more after : List (List Char)} (hmore : ∀ g ∈ more, g ≠ [])
    (hafter : after ≠ []) :
    areGroups (first :: (more ++ [] :: after)) = true ↔
      (sideOfGap (first :: more)).length + (sideOfGap after).length ≤ 7 ∧
        (∀ g ∈ sideOfGap (first :: more), isGroup g = true) ∧ ∀ g ∈ sideOfGap after, isGroup g = true := by
  obtain ⟨next, others, rfl⟩ := List.exists_cons_of_ne_nil hafter
  have hall : ∀ g ∈ more, (!g.isEmpty) = true := fun g hg => by simpa using hmore g hg
  have hdrop : (more ++ [] :: next :: others).dropWhile (fun g => !g.isEmpty) = [] :: next :: others := by
    rw [List.dropWhile_append_of_pos hall]
    rfl
  have htake : (more ++ [] :: next :: others).takeWhile (fun g => !g.isEmpty) = more := by
    rw [List.takeWhile_append_of_pos hall]
    simp
  simp only [areGroups, hdrop, htake, Bool.and_eq_true, decide_eq_true_eq, List.all_eq_true, and_assoc]

theorem areGroups_of_no_gap (first : List Char) {rest : List (List Char)}
    (h : ∀ more after, (∀ g ∈ more, g ≠ []) → after ≠ [] → rest ≠ more ++ [] :: after) :
    areGroups (first :: rest) = true ↔
      (∀ g ∈ first :: rest, isGroup g = true) ∧ (first :: rest).length = 8 := by
  have hrest := List.takeWhile_append_dropWhile (p := fun g : List Char => !g.isEmpty) (l := rest)
  have hstop := List.head?_dropWhile_not (fun g : List Char => !g.isEmpty) rest
  have hcount : areGroups (first :: rest) = (rest.length + 1 == 8 && (first :: rest).all isGroup) := by
    rcases hdrop : rest.dropWhile (fun g => !g.isEmpty) with _ | ⟨g, _ | ⟨next, others⟩⟩
    · simp only [areGroups, hdrop]
    · simp only [areGroups, hdrop]
    · have hempty : g = [] := by simpa [hdrop] using hstop
      rw [hdrop, hempty] at hrest
      refine absurd hrest.symm (h _ _ (fun g hg => ?_) (by simp))
      simpa using List.mem_takeWhile_imp hg
  rw [hcount, Bool.and_eq_true, beq_iff_eq, List.all_eq_true, and_comm]
  rfl

/-- Pieces make an address if they are eight groups, or at most seven around a gap. -/
theorem areGroups_iff {pieces : List (List Char)} :
    areGroups pieces = true ↔
      ((∀ g ∈ pieces, isGroup g = true) ∧ pieces.length = 8) ∨
      ∃ before after, (∀ g ∈ before, isGroup g = true) ∧ (∀ g ∈ after, isGroup g = true) ∧
        before.length + after.length ≤ 7 ∧ pieces = piecesOf before ++ [] :: piecesOf after := by
  cases pieces with
  | nil => simp [areGroups]
  | cons first rest =>
    constructor
    · intro h
      by_cases hgap : ∃ more after, (∀ g ∈ more, g ≠ []) ∧ after ≠ [] ∧ rest = more ++ [] :: after
      · obtain ⟨more, after, hmore, hafter, rfl⟩ := hgap
        obtain ⟨hcount, hbeforeGroups, hafterGroups⟩ := (areGroups_of_gap first hmore hafter).mp h
        refine Or.inr ⟨_, _, hbeforeGroups, hafterGroups, hcount, ?_⟩
        rw [piecesOf_sideOfGap (by simp), piecesOf_sideOfGap hafter]
        rfl
      · refine Or.inl ((areGroups_of_no_gap first fun more after hmore hafter heq => ?_).mp h)
        exact hgap ⟨more, after, hmore, hafter, heq⟩
    · rintro (hfull | ⟨before, after, hbefore, hafter, hcount, hpieces⟩)
      · -- No group is empty.
        refine (areGroups_of_no_gap first fun more after _ _ heq => ?_).mpr hfull
        exact ne_nil_of_isGroup (hfull.1 [] (by simp [heq])) rfl
      · obtain ⟨more, hfront, hmore⟩ : ∃ more, piecesOf before = first :: more ∧ ∀ g ∈ more, g ≠ [] := by
          cases before with
          | nil =>
            cases hpieces
            exact ⟨[], rfl, by simp⟩
          | cons g gs =>
            cases hpieces
            exact ⟨gs, rfl, fun x hx => ne_nil_of_isGroup (hbefore x (by simp [hx]))⟩
        have hback : piecesOf after ≠ [] := by cases after <;> simp [piecesOf]
        rw [hpieces, hfront, List.cons_append, areGroups_of_gap first hmore hback, ← hfront,
          sideOfGap_piecesOf hbefore, sideOfGap_piecesOf hafter]
        exact ⟨hcount, hbefore, hafter⟩

/-! ## Dotted texts -/

theorem expandDotted_append_text (pieces : List (List Char)) (a : Address) :
    expandDotted (pieces ++ [a.text.toList]) = some (pieces ++ [['0'], ['0']]) := by
  simp [expandDotted, dot_mem_text, readDotted_text]

theorem expandDotted_of_no_dot {pieces : List (List Char)} (h : ∀ piece ∈ pieces, '.' ∉ piece) :
    expandDotted pieces = some pieces := by
  unfold expandDotted
  split
  · rfl
  · rename_i last hlast
    have hdot := h last (List.mem_of_getLast? hlast)
    simp [hdot]

theorem expandDotted_cases {pieces expanded : List (List Char)} (h : expandDotted pieces = some expanded) :
    expanded = pieces ∨
      ∃ front, ∃ a : Address, pieces = front ++ [a.text.toList] ∧ expanded = front ++ [['0'], ['0']] := by
  unfold expandDotted at h
  split at h
  · exact Or.inl (Option.some.inj h).symm
  rename_i last hlast
  split at h
  · exact Or.inl (Option.some.inj h).symm
  split at h
  · cases h
  · rename_i a ha
    obtain ⟨front, rfl⟩ := List.getLast?_eq_some_iff.mp hlast
    rw [List.dropLast_concat] at h
    refine Or.inr ⟨front, a, ?_, (Option.some.inj h).symm⟩
    rw [eq_text_of_readDotted ha]

theorem exists_front_of_gap {front before after : List (List Char)}
    (h : front ++ [['0'], ['0']] = before ++ [] :: piecesOf after) :
    ∃ rest, after = rest ++ [['0'], ['0']] ∧ front = before ++ [] :: rest := by
  rcases List.append_eq_append_iff.mp h with ⟨middle, -, hmiddle⟩ | ⟨middle, hfront, hmiddle⟩
  · -- The gap is neither of the two.
    have hmem : ([] : List Char) ∈ [['0'], ['0']] := by simp [hmiddle]
    simp at hmem
  · cases middle with
    | nil => cases hmiddle
    | cons g rest =>
      rw [List.cons_append, List.cons.injEq] at hmiddle
      obtain ⟨rfl, hafter⟩ := hmiddle
      refine ⟨rest, ?_, hfront⟩
      cases after with
      | nil => simpa [piecesOf] using congrArg List.length hafter
      | cons x more => exact hafter

/-! ## Addresses -/

theorem forall_isGroup_append_zeros {groups : List (List Char)} :
    (∀ g ∈ groups ++ [['0'], ['0']], isGroup g = true) ↔ ∀ g ∈ groups, isGroup g = true := by
  have hzero : isGroup ['0'] = true := rfl
  rw [List.forall_mem_append]
  simp [hzero]

theorem piecesOf_append_cons (groups : List (List Char)) (g : List Char) (more : List (List Char)) :
    piecesOf (groups ++ g :: more) = groups ++ g :: more := by
  cases groups <;> rfl

theorem colonText_of_expands {s : List Char} {expanded : List (List Char)}
    (hexpand : expandDotted (split [':'] s) = some expanded) (hgroups : areGroups expanded = true) :
    ColonText s := by
  -- A text is the one that its pieces are cut from.
  have hgap : ∀ {before after : List (List Char)} {n : Nat}, (∀ g ∈ before, isGroup g = true) → Groups after n →
      before.length + n ≤ 7 → split [':'] s = piecesOf before ++ [] :: piecesOf after → ColonText s := by
    intro before after n hbefore hafter hcount hpieces
    rw [← split_gap (fun g hg => not_mem_of_isGroup (hbefore g hg) (by decide))
      (hafter.not_mem (by decide) (by decide))] at hpieces
    rw [split_injective hpieces]
    exact .gap hbefore hafter hcount
  rcases expandDotted_cases hexpand with rfl | ⟨front, a, hpieces, rfl⟩
  · rcases areGroups_iff.mp hgroups with ⟨hall, hcount⟩ | ⟨before, after, hbefore, hafter, hcount, hcut⟩
    · rw [← join_split ':' s]
      exact .full (hcount ▸ .plain hall)
    · exact hgap hbefore (.plain hafter) hcount hcut
  · rcases areGroups_iff.mp hgroups with ⟨hall, hcount⟩ | ⟨before, after, hbefore, hafter, hcount, hcut⟩
    · rw [List.length_append] at hcount
      rw [← join_split ':' s, hpieces]
      exact .full (hcount ▸ .dotted a (forall_isGroup_append_zeros.mp hall))
    · obtain ⟨rest, rfl, rfl⟩ := exists_front_of_gap hcut
      rw [List.length_append] at hcount
      refine hgap hbefore (.dotted a (forall_isGroup_append_zeros.mp hafter)) hcount ?_
      rw [hpieces, piecesOf_append_cons, List.append_assoc, List.cons_append]

theorem ColonText.expands {s : List Char} (h : ColonText s) :
    ∃ expanded, expandDotted (split [':'] s) = some expanded ∧ areGroups expanded = true := by
  have hnodot : ∀ {groups : List (List Char)}, (∀ g ∈ groups, isGroup g = true) → ∀ g ∈ piecesOf groups, '.' ∉ g := by
    intro groups hgroups g hg
    cases groups with
    | nil => simp [List.mem_singleton.mp hg]
    | cons x more => exact not_mem_of_isGroup (hgroups g hg) (by decide)
  cases h with
  | @full pieces hpieces =>
    generalize height : 8 = n at hpieces
    rw [split_groups (hpieces.not_mem (by decide) (by decide))]
    cases hpieces with
    | plain hall =>
      refine ⟨_, expandDotted_of_no_dot (hnodot hall), areGroups_iff.mpr (Or.inl ?_)⟩
      cases pieces with
      | nil => cases height
      | cons x more => exact ⟨hall, height.symm⟩
    | dotted a hall =>
      rw [piecesOf_append_cons]
      refine ⟨_, expandDotted_append_text _ a, areGroups_iff.mpr (Or.inl ⟨?_, ?_⟩)⟩
      · exact forall_isGroup_append_zeros.mpr hall
      · rw [List.length_append]
        exact height.symm
  | gap hbefore hafter hcount =>
    rw [split_gap (fun g hg => not_mem_of_isGroup (hbefore g hg) (by decide))
      (hafter.not_mem (by decide) (by decide))]
    cases hafter with
    | plain hall =>
      refine ⟨_, expandDotted_of_no_dot ?_, areGroups_iff.mpr (Or.inr ⟨_, _, hbefore, hall, hcount, rfl⟩)⟩
      simp only [List.forall_mem_append, List.forall_mem_cons]
      exact ⟨hnodot hbefore, by simp, hnodot hall⟩
    | @dotted groups a hall =>
      have hback : piecesOf (groups ++ [['0'], ['0']]) = groups ++ [['0'], ['0']] := piecesOf_append_cons _ _ _
      rw [piecesOf_append_cons, ← List.cons_append, ← List.append_assoc]
      refine ⟨_, expandDotted_append_text _ a, areGroups_iff.mpr (Or.inr ⟨_, groups ++ [['0'], ['0']], hbefore, ?_⟩)⟩
      refine ⟨forall_isGroup_append_zeros.mpr hall, ?_, ?_⟩
      · rw [List.length_append]
        exact hcount
      · rw [hback, List.append_assoc, List.cons_append]

theorem colonText_iff {s : List Char} :
    (expandDotted (split [':'] s)).any areGroups = true ↔ ColonText s := by
  rw [Option.any_eq_true]
  constructor
  · rintro ⟨expanded, hexpand, hgroups⟩
    exact colonText_of_expands hexpand hgroups
  · exact ColonText.expands

theorem withoutScope_eq_some_iff {s address : List Char} :
    withoutScope s = some address ↔ ('%' ∉ s ∧ address = s) ∨
      ∃ scope, s = address ++ '%' :: scope ∧ '%' ∉ address ∧ scope ≠ [] ∧ '%' ∉ scope := by
  unfold withoutScope
  cases hcut : splitOnce '%' s with
  | none =>
    have hnone := splitOnce_eq_none_iff.mp hcut
    constructor
    · rintro ⟨⟩
      exact Or.inl ⟨hnone, rfl⟩
    · rintro (⟨-, rfl⟩ | ⟨scope, rfl, -⟩)
      · rfl
      · simp at hnone
  | some parts =>
    obtain ⟨front, scope⟩ := parts
    obtain ⟨rfl, hfront⟩ := eq_append_of_splitOnce hcut
    dsimp only
    constructor
    · intro h
      split at h
      · cases h
      · rename_i hscope
        cases h
        rw [Bool.or_eq_true, not_or, List.isEmpty_iff, List.contains_iff_mem] at hscope
        exact Or.inr ⟨scope, rfl, hfront, hscope⟩
    · rintro (⟨hnone, -⟩ | ⟨scope', heq, haddress, hne, hscope⟩)
      · simp at hnone
      · have hsame := splitOnce_append haddress scope'
        rw [← heq, hcut] at hsame
        cases hsame
        rw [if_neg]
        rw [Bool.or_eq_true, not_or, List.isEmpty_iff, List.contains_iff_mem]
        exact ⟨hne, hscope⟩

/-- The texts of IPv6 addresses are recognised, and no others. -/
theorem isColonAddress_iff {s : List Char} : isColonAddress s = true ↔ ColonAddress s := by
  have hparts : isColonAddress s = true ↔
      '/' ∉ s ∧ ∃ address, withoutScope s = some address ∧ ColonText address := by
    unfold isColonAddress
    rw [Bool.and_eq_true, Bool.not_eq_true', Bool.eq_false_iff, ne_eq, List.contains_iff_mem]
    cases withoutScope s with
    | none => simp
    | some address => simp [colonText_iff]
  rw [hparts]
  constructor
  · rintro ⟨hslash, address, hscope, htext⟩
    rcases withoutScope_eq_some_iff.mp hscope with ⟨-, rfl⟩ | ⟨scope, rfl, -, hne, hpercent⟩
    · exact .plain htext
    · exact .inScope htext hne hpercent fun hmem => hslash (by simp [hmem])
  · intro h
    refine ⟨h.slash_not_mem, ?_⟩
    cases h with
    | plain htext =>
      have hpercent := htext.not_mem (c := '%') (by decide) (by decide) (by decide)
      exact ⟨s, withoutScope_eq_some_iff.mpr (Or.inl ⟨hpercent, rfl⟩), htext⟩
    | @inScope address scope htext hne hpercent _ =>
      have hfront := htext.not_mem (c := '%') (by decide) (by decide) (by decide)
      exact ⟨address, withoutScope_eq_some_iff.mpr (Or.inr ⟨scope, rfl, hfront, hne, hpercent⟩), htext⟩

/-! ## Networks -/

theorem readLength_eq_some_iff {max length : Nat} {s : List Char} :
    readLength max s = some length ↔ s ≠ [] ∧ (∀ c ∈ s, c.isDigit = true) ∧ s.length ≤ Numeral.maxDigits ∧
      Nat.ofDigitChars 10 s 0 = length ∧ length ≤ max := by
  have hfits : ¬(s.isEmpty || !s.all Char.isDigit || decide (s.length > Numeral.maxDigits)) = true ↔
      s ≠ [] ∧ (∀ c ∈ s, c.isDigit = true) ∧ s.length ≤ Numeral.maxDigits := by
    simp [and_assoc]
  constructor
  · intro h
    unfold readLength at h
    split at h
    · cases h
    rename_i haccepted
    obtain ⟨hne, hdigits, hlength⟩ := hfits.mp haccepted
    dsimp only at h
    split at h
    · rename_i hle
      cases h
      exact ⟨hne, hdigits, hlength, rfl, hle⟩
    · cases h
  · rintro ⟨hne, hdigits, hlength, rfl, hle⟩
    rw [readLength, if_neg (hfits.mpr ⟨hne, hdigits, hlength⟩)]
    exact if_pos hle

/-- The texts of IPv6 networks are recognised, and no others with a slash. -/
theorem isColonNetwork_iff {s : List Char} (hslash : '/' ∈ s) : isColonNetwork s = true ↔ ColonNetwork s := by
  have hjoin := join_split '/' s
  constructor
  · intro h
    unfold isColonNetwork at h
    split at h
    · rename_i piece hpiece
      have haddress := isColonAddress_iff.mp h
      rw [hpiece] at hjoin
      have hsame : piece = s := by simpa using hjoin
      exact absurd (hsame ▸ hslash) haddress.slash_not_mem
    · rename_i address digits hpieces
      rw [Bool.and_eq_true, isColonAddress_iff, Option.isSome_iff_exists] at h
      obtain ⟨haddress, length, hlength⟩ := h
      obtain ⟨hne, hdigits, hfew, rfl, hle⟩ := readLength_eq_some_iff.mp hlength
      rw [hpieces] at hjoin
      have hsame : address ++ '/' :: digits = s := by simpa using hjoin
      exact hsame ▸ .intro haddress hne hdigits hfew hle
    · cases h
  · intro h
    cases h with
    | intro haddress hne hdigits hfew hle =>
      have hright : '/' ∉ _ := fun hmem => by cases hdigits '/' hmem
      rw [isColonNetwork, split_pair haddress.slash_not_mem hright]
      rw [Bool.and_eq_true, isColonAddress_iff, Option.isSome_iff_exists]
      exact ⟨haddress, _, readLength_eq_some_iff.mpr ⟨hne, hdigits, hfew, rfl, hle⟩⟩

end FirewallPolicy.Address
