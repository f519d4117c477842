import FirewallPolicy.Dump.Cell
import FirewallPolicy.Proofs.Address.Dotted
import FirewallPolicy.Proofs.Meaning

/-!
The cells of a record are read back from what is written in them.

A range is written in digits, dots and a dash (`Range.isRangeChar_of_mem_text`), so its text has no
blank, no comma and no slash in it. A set is the word for everything or its ranges with commas between
them (`ValueSet.text`); the commas are where such a text is cut, and trimming takes off the blanks that
follow them (`entries_join`).

Proved: `readAddressRange_text` and `readPortRange_text`, a range is read from its text, be it one number,
two, or two in the wrong order; `readAddresses_text` and `readPorts_text`, so is a set of everything or
of some ranges.
-/

namespace FirewallPolicy

open Text

/-! ## Ranges -/

namespace Quantity

variable (q : Quantity) {n : Nat} (h : n ≤ q.maximum)

theorem numberText_port (h : n ≤ Quantity.port.maximum) :
    (Quantity.port.numberText n h).toList = Nat.toDigits 10 n := by
  simp [numberText]

theorem isDigit_or_dot_of_mem_numberText {c : Char} (hc : c ∈ (q.numberText n h).toList) :
    c.isDigit = true ∨ c = '.' := by
  cases q with
  | address => exact Address.isDigit_or_dot_of_mem_text _ hc
  | port =>
    rw [numberText_port] at hc
    exact Or.inl (isDigit_of_mem_toDigits n hc)
  | protocol =>
    simp only [numberText, Nat.toString_eq_repr, Nat.toList_repr] at hc
    exact Or.inl (isDigit_of_mem_toDigits n hc)

theorem numberText_eq_cons : ∃ c rest, (q.numberText n h).toList = c :: rest ∧ c.isDigit = true := by
  cases q with
  | address => exact Address.text_eq_cons _
  | port =>
    rw [numberText_port]
    exact toDigits_eq_cons n
  | protocol =>
    simp only [numberText, Nat.toString_eq_repr, Nat.toList_repr]
    exact toDigits_eq_cons n

theorem dash_not_mem_numberText : '-' ∉ (q.numberText n h).toList := by
  intro hc
  rcases q.isDigit_or_dot_of_mem_numberText h hc with hc | hc <;> cases hc

end Quantity

def isRangeChar (c : Char) : Bool := c.isDigit || c == '.' || c == '-'

theorem isBlank_of_isRangeChar {c : Char} (h : isRangeChar c = true) : isBlank c = false := by
  simp only [isRangeChar, Bool.or_eq_true, beq_iff_eq] at h
  rcases h with (h | rfl) | rfl
  · exact isBlank_of_isDigit h
  · rfl
  · rfl

namespace Range

variable {q : Quantity} (r : Range q)

theorem eq_of_bounds {r s : Range q} (hlow : r.low = s.low) (hhigh : r.high = s.high) : r = s := by
  cases r
  cases s
  cases hlow
  cases hhigh
  rfl

theorem toList_text_of_eq (h : r.low = r.high) :
    r.text.toList = (q.numberText r.low r.low_le).toList := by
  rw [text, if_pos h]

theorem toList_text_of_ne (h : r.low ≠ r.high) :
    r.text.toList =
      (q.numberText r.low r.low_le).toList ++ '-' :: (q.numberText r.high r.high_le).toList := by
  rw [text, if_neg h]
  simp

theorem isRangeChar_of_mem_text {c : Char} (hc : c ∈ r.text.toList) : isRangeChar c = true := by
  have hnumber : ∀ {n : Nat} (hn : n ≤ q.maximum), c ∈ (q.numberText n hn).toList →
      isRangeChar c = true := by
    intro n hn hmem
    rcases q.isDigit_or_dot_of_mem_numberText hn hmem with hd | rfl
    · simp [isRangeChar, hd]
    · rfl
  by_cases heq : r.low = r.high
  · rw [r.toList_text_of_eq heq] at hc
    exact hnumber _ hc
  · rw [r.toList_text_of_ne heq, List.mem_append, List.mem_cons] at hc
    rcases hc with hc | rfl | hc
    · exact hnumber _ hc
    · rfl
    · exact hnumber _ hc

theorem text_eq_cons : ∃ c rest, r.text.toList = c :: rest ∧ c.isDigit = true := by
  obtain ⟨c, rest, hcons, hc⟩ := q.numberText_eq_cons r.low_le
  by_cases heq : r.low = r.high
  · exact ⟨c, rest, by rw [r.toList_text_of_eq heq, hcons], hc⟩
  · exact ⟨c, _, by rw [r.toList_text_of_ne heq, hcons]; rfl, hc⟩

theorem text_ne_nil : r.text.toList ≠ [] := by
  obtain ⟨c, rest, hcons, -⟩ := r.text_eq_cons
  simp [hcons]

/-- One number has no dash to be cut at. -/
theorem splitOnce_text_of_eq (h : r.low = r.high) : splitOnce '-' r.text.toList = none := by
  rw [r.toList_text_of_eq h]
  exact splitOnce_eq_none_iff.mpr (q.dash_not_mem_numberText _)

theorem splitOnce_text_of_ne (h : r.low ≠ r.high) :
    splitOnce '-' r.text.toList =
      some ((q.numberText r.low r.low_le).toList, (q.numberText r.high r.high_le).toList) := by
  rw [r.toList_text_of_ne h]
  exact splitOnce_append (q.dash_not_mem_numberText _) _

end Range

namespace Dump

theorem readAddress_eq_ok_iff {text : List Char} {a : Address} :
    readAddress text = .ok a ↔ trim text = a.text.toList := by
  rw [← Address.readDotted_eq_ok_iff, readAddress, Address.read]
  cases Address.readDotted (trim text) <;> simp [Invalid.ofAddress]

theorem readAddress_text (a : Address) : readAddress a.text.toList = .ok a :=
  readAddress_eq_ok_iff.mpr a.trim_text

theorem readNumber_toDigits {n : Nat} (h : n < UInt32.size) :
    readNumber (Nat.toDigits 10 n) = .ok (n : Int) := by
  rw [readNumber, Numeral.read_toDigits_of_lt h, Invalid.ofNumeral]

theorem readAddressRange_text (r : Range .address) : readAddressRange r.text.toList = .ok r := by
  have hslash : r.text.toList.contains '/' = false := by
    rw [Bool.eq_false_iff, ne_eq, List.contains_iff_mem]
    intro hmem
    cases r.isRangeChar_of_mem_text hmem
  have hread : ∀ {n : Nat} (hn : n ≤ Quantity.address.maximum),
      readAddress (Quantity.address.numberText n hn).toList =
        .ok ⟨n, Nat.lt_of_le_sub_one (by decide) hn⟩ := fun hn => readAddress_text _
  rw [readAddressRange, hslash]
  by_cases heq : r.low = r.high
  · rw [r.splitOnce_text_of_eq heq, r.toList_text_of_eq heq]
    simp only [Bool.false_eq_true, if_false, hread, ok_bind, pure_eq_ok]
    exact congrArg Except.ok (Range.eq_of_bounds rfl heq)
  · rw [r.splitOnce_text_of_ne heq]
    simp only [Bool.false_eq_true, if_false, hread, ok_bind, pure_eq_ok, Range.ofAddresses]

theorem ofBounds_eq {q : Quantity} (r : Range q) : Range.ofBounds q r.low r.high = .ok r := by
  have hcheck : ∀ {n : Nat} (hn : n ≤ q.maximum), q.check n = .ok ⟨n, hn⟩ := by
    intro n hn
    rw [Quantity.check, dif_pos ⟨Int.natCast_nonneg n, Int.ofNat_le.mpr hn⟩]
    rfl
  simp only [Range.ofBounds, hcheck r.low_le, hcheck r.high_le, ok_bind, pure_eq_ok]

theorem readPortRange_text (r : Range .port) : readPortRange r.text.toList = .ok r := by
  have hread : ∀ {n : Nat} (hn : n ≤ Quantity.port.maximum),
      readNumber (Quantity.port.numberText n hn).toList = .ok (n : Int) := by
    intro n hn
    rw [Quantity.numberText_port]
    exact readNumber_toDigits (Nat.lt_of_le_of_lt hn (by decide))
  rw [readPortRange]
  by_cases heq : r.low = r.high
  · have hsingle := ofBounds_eq r
    rw [← heq] at hsingle
    rw [r.splitOnce_text_of_eq heq, r.toList_text_of_eq heq]
    simp only [hread, ok_bind, Range.single]
    exact hsingle
  · rw [r.splitOnce_text_of_ne heq]
    simp only [hread, ok_bind]
    exact ofBounds_eq r

end Dump

/-! ## Sets -/

def listSeparator : List Char := [',', ' ']

namespace ValueSet

variable {q : Quantity}

def text (s : ValueSet q) : String :=
  if s.everything then "Any" else ", ".intercalate (s.ranges.map Range.text)

def Plain (s : ValueSet q) : Prop := s = .all ∨ ∃ ranges, ranges ≠ [] ∧ s = .ofRanges ranges

theorem toList_text_ofRanges (ranges : List (Range q)) :
    (ofRanges ranges).text.toList = listSeparator.intercalate (ranges.map (·.text.toList)) := by
  simp [text, ofRanges, listSeparator, String.toList_intercalate, Function.comp_def]

end ValueSet

namespace Dump

theorem entries_join {pieces : List (List Char)} (hne : pieces ≠ [])
    (hpieces : ∀ piece ∈ pieces, piece ≠ [] ∧ ∀ c ∈ piece, c ≠ ',' ∧ isBlank c = false) :
    entries (listSeparator.intercalate pieces) = pieces := by
  obtain ⟨first, rest, rfl⟩ := List.exists_cons_of_ne_nil hne
  -- Cut at the commas alone, every entry but the first has a blank in front.
  have hjoin : listSeparator.intercalate (first :: rest) =
      [','].intercalate (first :: rest.map (' ' :: ·)) := by
    clear hne hpieces
    induction rest generalizing first with
    | nil => simp
    | cons next more ih =>
      rw [List.intercalate_cons_cons, ih, List.map_cons, List.intercalate_cons_cons]
      cases more <;> simp [listSeparator]
  have hcommas : ∀ piece ∈ first :: rest.map (' ' :: ·), ',' ∉ piece := by
    intro piece hpiece hcomma
    rcases List.mem_cons.mp hpiece with rfl | hpiece
    · exact ((hpieces piece (by simp)).2 ',' hcomma).1 rfl
    · obtain ⟨p, hp, rfl⟩ := List.mem_map.mp hpiece
      rcases List.mem_cons.mp hcomma with hc | hc
      · cases hc
      · exact ((hpieces p (by simp [hp])).2 ',' hc).1 rfl
  have htrim : ∀ piece ∈ first :: rest, trim piece = piece := fun piece hpiece =>
    trimBy_eq_self fun c hc => ((hpieces piece hpiece).2 c hc).2
  have hblank : ∀ piece ∈ rest, trim (' ' :: piece) = piece := fun piece hpiece => by
    rw [trim_cons_of_blank rfl, htrim piece (by simp [hpiece])]
  have hfull : ∀ piece ∈ first :: rest, (!piece.isEmpty) = true := by
    intro piece hpiece
    simpa using (hpieces piece hpiece).1
  have htrimmed : rest.map (trim ∘ (' ' :: ·)) = rest := (List.map_congr_left hblank).trans (List.map_id _)
  rw [entries, hjoin, split_join hcommas (by simp), List.map_cons, List.map_map, htrim first (by simp),
    htrimmed, List.filter_eq_self.mpr hfull]

section Lists

variable {q : Quantity} {ranges : List (Range q)} (hne : ranges ≠ [])
include hne

theorem entries_text : entries (ValueSet.ofRanges ranges).text.toList = ranges.map (·.text.toList) := by
  rw [ValueSet.toList_text_ofRanges]
  refine entries_join (by simpa using hne) ?_
  intro piece hpiece
  obtain ⟨r, -, rfl⟩ := List.mem_map.mp hpiece
  refine ⟨r.text_ne_nil, fun c hc => ?_⟩
  have hchar := r.isRangeChar_of_mem_text hc
  refine ⟨?_, isBlank_of_isRangeChar hchar⟩
  rintro rfl
  cases hchar

theorem text_ofRanges_eq_cons :
    ∃ c rest, (ValueSet.ofRanges ranges).text.toList = c :: rest ∧ c.isDigit = true := by
  obtain ⟨r, more, rfl⟩ := List.exists_cons_of_ne_nil hne
  obtain ⟨c, rest, hcons, hc⟩ := r.text_eq_cons
  have hhead := head?_intercalate listSeparator r.text_ne_nil (more.map (·.text.toList))
  rw [ValueSet.toList_text_ofRanges, List.map_cons]
  rw [hcons, List.head?_cons, List.head?_eq_some_iff] at hhead
  obtain ⟨tail, htail⟩ := hhead
  exact ⟨c, tail, by rw [hcons, htail], hc⟩

/-- There are blanks within a list of ranges, but not at its ends. -/
theorem trim_text_ofRanges :
    trim (ValueSet.ofRanges ranges).text.toList = (ValueSet.ofRanges ranges).text.toList := by
  refine trimBy_eq_self_of_ends ?_ ?_
  · obtain ⟨c, rest, hcons, hc⟩ := text_ofRanges_eq_cons hne
    rw [hcons]
    rintro d hd
    cases hd
    exact isBlank_of_isDigit hc
  · rw [ValueSet.toList_text_ofRanges]
    have hpieces : ∀ piece ∈ ranges.map (·.text.toList), piece ≠ [] := by
      intro piece hpiece
      obtain ⟨r, -, rfl⟩ := List.mem_map.mp hpiece
      exact r.text_ne_nil
    obtain ⟨piece, hpiece, hlast⟩ :=
      exists_getLast?_intercalate listSeparator hpieces (by simpa using hne)
    obtain ⟨r, -, rfl⟩ := List.mem_map.mp hpiece
    rw [hlast]
    intro c hc
    exact isBlank_of_isRangeChar (r.isRangeChar_of_mem_text (List.mem_of_getLast? hc))

/-- A list of ranges is no word. -/
theorem text_ofRanges_ne (word : List Char) (hword : word.head?.any Char.isDigit = false) :
    (ValueSet.ofRanges ranges).text.toList ≠ word := by
  rintro rfl
  obtain ⟨c, rest, hcons, hc⟩ := text_ofRanges_eq_cons hne
  rw [hcons, List.head?_cons, Option.any_some, hc] at hword
  cases hword

end Lists

theorem mapM_map_eq_ok {ε α β : Type} {read : β → Except ε α} {write : α → β}
    (h : ∀ x, read (write x) = .ok x) (xs : List α) : (xs.map write).mapM read = .ok xs := by
  rw [mapM_eq_ok_iff, List.forall₂_map_left_iff, List.forall₂_same]
  exact fun x _ => h x

/-- A set of addresses is read from its text. -/
theorem readAddresses_text {s : ValueSet .address} (h : s.Plain) : readAddresses s.text.toList = .ok s := by
  rcases h with rfl | ⟨ranges, hne, rfl⟩
  · decide +kernel
  · have hany := text_ofRanges_ne hne anyWord (by decide)
    have hranges := mapM_map_eq_ok readAddressRange_text ranges
    simp only [readAddresses, trim_text_ofRanges hne, if_neg hany, entries_text hne, hranges, ok_bind,
      pure_eq_ok]

theorem readPorts_text {s : ValueSet .port} (h : s.Plain) : readPorts s.text.toList = .ok s := by
  rcases h with rfl | ⟨ranges, hne, rfl⟩
  · decide +kernel
  · have hempty : (ValueSet.ofRanges ranges).text.toList.isEmpty = false := by
      simpa using text_ofRanges_ne hne [] (by decide)
    have hany := text_ofRanges_ne hne anyWord (by decide)
    have hmacro : portMacros.contains (String.ofList (ValueSet.ofRanges ranges).text.toList) = false := by
      have hletters : ∀ name ∈ portMacros, name.toList.head?.any Char.isDigit = false := by decide +kernel
      rw [Bool.eq_false_iff, ne_eq, List.contains_iff_mem]
      intro hmem
      exact text_ofRanges_ne hne _ (hletters _ hmem) (String.toList_ofList).symm
    have hranges := mapM_map_eq_ok readPortRange_text ranges
    simp only [readPorts, trim_text_ofRanges hne, hempty, if_neg hany, hmacro, entries_text hne, hranges,
      ok_bind, pure_eq_ok, Bool.false_eq_true, if_false]

end Dump

end FirewallPolicy
