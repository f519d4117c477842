import FirewallPolicy.Address.Network
import FirewallPolicy.Proofs.Text.Decimal

/-!
The dotted text of an address, and nothing else, is read as the address.

Each octet is written in decimal without a zero in front (`head?_toDigits_ne`), which is what an octet
has to look like to be read (`readOctet_toDigits`, `eq_toDigits_of_readOctet`). The octets have no dot in
them, so cutting at the dots gives them back.

Proved: `readDotted_eq_ok_iff`, an address is read from its text and from no other (`readDotted_text`,
`eq_text_of_readDotted`); `text_injective`, no two addresses have the same text.
-/

namespace FirewallPolicy.Address

open Text

/-! ## Octets -/

/-- The decimal text of a number that is not zero does not start with a zero. -/
theorem head?_toDigits_ne {n : Nat} (h : n ≠ 0) : (Nat.toDigits 10 n).head? ≠ some '0' := by
  induction n using Nat.strongRecOn with
  | _ n ih =>
    rw [Nat.toDigits_eq_if (by decide)]
    split
    · simpa using h
    · -- The last digit comes off the end and leaves the first where it is.
      have hpart := ih (n / 10) (by omega) (by omega)
      obtain ⟨c, rest, hcons, -⟩ := toDigits_eq_cons (n / 10)
      rw [hcons] at hpart ⊢
      exact hpart

theorem readOctet_toDigits {n : Nat} (h : n < 256) : readOctet (Nat.toDigits 10 n) = .ok n := by
  have hempty : (Nat.toDigits 10 n).isEmpty = false := by simp [Nat.toDigits_ne_nil]
  have hdigits : (Nat.toDigits 10 n).all Char.isDigit = true :=
    List.all_eq_true.mpr fun c hc => isDigit_of_mem_toDigits n hc
  have hlength : ¬(Nat.toDigits 10 n).length > 3 := by
    have hle : (Nat.toDigits 10 n).length ≤ 3 :=
      (Nat.length_toDigits_le_iff (by decide) (by decide)).mpr (by omega)
    omega
  have hzero : (Nat.toDigits 10 n != ['0'] && (Nat.toDigits 10 n).head? == some '0') = false := by
    by_cases hn : n = 0
    · subst hn
      rfl
    · simp [head?_toDigits_ne hn]
  have hvalue : decimalValue (Nat.toDigits 10 n) = n := Nat.ofDigitChars_ten_toDigits
  simp only [readOctet, hempty, hdigits, if_neg hlength, hzero, hvalue, Bool.not_true,
    Bool.false_eq_true, if_false]
  exact if_neg (by omega)

theorem readOctets_toDigits {octets : List Nat} (h : ∀ o ∈ octets, o < 256) :
    readOctets (octets.map (Nat.toDigits 10)) = .ok octets := by
  induction octets with
  | nil => rfl
  | cons o rest ih =>
    have ho := readOctet_toDigits (h o (by simp))
    have hrest := ih fun x hx => h x (by simp [hx])
    rw [List.map_cons, readOctets, ho, hrest]
    rfl

/-- An octet is read from its decimal text only. -/
theorem eq_toDigits_of_readOctet {octet : List Char} {n : Nat} (h : readOctet octet = .ok n) :
    octet = Nat.toDigits 10 n ∧ n < 256 := by
  unfold readOctet at h
  split at h
  · cases h
  rename_i hempty
  split at h
  · cases h
  rename_i hdigits
  split at h
  · cases h
  split at h
  · cases h
  rename_i hzero
  simp only at h
  split at h
  · cases h
  rename_i hsmall
  cases h
  refine ⟨(toDigits_ofDigitChars ?_ ?_ ?_).symm, by omega⟩
  · simpa using hempty
  · simpa using hdigits
  · simpa using hzero

theorem eq_map_of_readOctets {parts : List (List Char)} {octets : List Nat}
    (h : readOctets parts = .ok octets) :
    parts = octets.map (Nat.toDigits 10) ∧ ∀ o ∈ octets, o < 256 := by
  induction parts generalizing octets with
  | nil =>
    cases h
    exact ⟨rfl, by simp⟩
  | cons part rest ih =>
    rw [readOctets] at h
    cases hpart : readOctet part with
    | error fault =>
      rw [hpart] at h
      cases h
    | ok o =>
      cases hrest : readOctets rest with
      | error fault =>
        rw [hpart, hrest] at h
        cases h
      | ok more =>
        rw [hpart, hrest] at h
        cases h
        obtain ⟨hdigits, hsmall⟩ := eq_toDigits_of_readOctet hpart
        obtain ⟨hmap, hall⟩ := ih hrest
        exact ⟨by rw [List.map_cons, ← hdigits, ← hmap], List.forall_mem_cons.mpr ⟨hsmall, hall⟩⟩

/-! ## Addresses -/

variable (a : Address)

theorem toList_text : a.text.toList = ['.'].intercalate (a.octets.map (Nat.toDigits 10)) := by
  simp [text, String.toList_intercalate, List.map_map, Function.comp_def]

theorem isDigit_or_dot_of_mem_text {c : Char} (h : c ∈ a.text.toList) : c.isDigit = true ∨ c = '.' := by
  rw [toList_text] at h
  rcases mem_of_mem_intercalate h with h | ⟨piece, hpiece, hc⟩
  · exact Or.inr (List.mem_singleton.mp h)
  · obtain ⟨o, -, rfl⟩ := List.mem_map.mp hpiece
    exact Or.inl (isDigit_of_mem_toDigits o hc)

theorem split_text : split ['.'] a.text.toList = a.octets.map (Nat.toDigits 10) := by
  rw [toList_text]
  refine split_join ?_ (by simp [octets])
  intro piece hpiece hdot
  obtain ⟨o, -, rfl⟩ := List.mem_map.mp hpiece
  cases isDigit_of_mem_toDigits o hdot

theorem readDotted_text : readDotted a.text.toList = .ok a := by
  have hslash : a.text.toList.contains '/' = false := by
    rw [Bool.eq_false_iff, ne_eq, List.contains_iff_mem]
    intro h
    rcases a.isDigit_or_dot_of_mem_text h with h | h <;> cases h
  have hempty : a.text.toList.isEmpty = false := by
    rw [Bool.eq_false_iff, ne_eq, List.isEmpty_iff]
    intro h
    have hpieces := congrArg List.length a.split_text
    simp [h, split_nil, octets] at hpieces
  have hlength : ¬(split ['.'] a.text.toList).length ≠ 4 := by simp [split_text, octets]
  have hoctets : readOctets (split ['.'] a.text.toList) = .ok a.octets := by
    rw [split_text]
    exact readOctets_toDigits a.octets_lt
  have hvalue : ofOctets a.octets < UInt32.size := by
    rw [ofOctets_octets]
    exact a.value_lt
  simp only [readDotted, hslash, hempty, if_neg hlength, hoctets, Bool.false_eq_true, if_false,
    dif_pos hvalue]
  simp only [ofOctets_octets]

theorem octets_ofOctets {values : List Nat} (hlength : values.length = 4) (hsmall : ∀ o ∈ values, o < 256)
    (h : ofOctets values < UInt32.size) : octets ⟨ofOctets values, h⟩ = values := by
  obtain ⟨w, x, y, z, rfl⟩ : ∃ w x y z, values = [w, x, y, z] := by
    match values, hlength with
    | [w, x, y, z], _ => exact ⟨w, x, y, z, rfl⟩
  simp only [List.forall_mem_cons] at hsmall
  simp only [octets, ofOctets, List.foldl_cons, List.foldl_nil, List.cons.injEq, and_true]
  omega

theorem eq_text_of_readDotted {s : List Char} {a : Address} (h : readDotted s = .ok a) :
    s = a.text.toList := by
  unfold readDotted at h
  split at h
  · cases h
  split at h
  · cases h
  simp only at h
  split at h
  · cases h
  rename_i hcount
  split at h
  · cases h
  rename_i values hvalues
  split at h
  · rename_i hsize
    cases h
    obtain ⟨hparts, hsmall⟩ := eq_map_of_readOctets hvalues
    have hfour : values.length = 4 := by
      rw [← List.length_map (Nat.toDigits 10), ← hparts]
      exact not_not.mp hcount
    rw [toList_text, octets_ofOctets hfour hsmall hsize, ← hparts, join_split]
  · cases h

/-- Exactly the text of an address is read as the address. -/
theorem readDotted_eq_ok_iff {s : List Char} {a : Address} :
    readDotted s = .ok a ↔ s = a.text.toList :=
  ⟨eq_text_of_readDotted, fun h => h ▸ a.readDotted_text⟩

theorem text_injective : Function.Injective text := by
  intro a b h
  have hread := a.readDotted_text
  rw [h, readDotted_text] at hread
  exact (Except.ok.inj hread).symm

theorem trim_text : trim a.text.toList = a.text.toList := by
  refine trimBy_eq_self fun c hc => ?_
  rcases a.isDigit_or_dot_of_mem_text hc with h | rfl
  · exact isBlank_of_isDigit h
  · rfl

theorem text_eq_cons : ∃ c rest, a.text.toList = c :: rest ∧ c.isDigit = true := by
  rw [toList_text]
  obtain ⟨c, rest, hcons, hc⟩ := toDigits_eq_cons (a.value >>> 24)
  simp only [octets, List.map_cons, List.intercalate_cons_cons, hcons, List.cons_append]
  exact ⟨c, _, rfl, hc⟩

theorem isAny_text : isAny a.text.toList = false := by
  obtain ⟨c, rest, hcons, hc⟩ := a.text_eq_cons
  rw [hcons]
  exact isAny_cons (isBlank_of_isDigit hc) (toLower_of_isDigit hc) rest

end FirewallPolicy.Address
