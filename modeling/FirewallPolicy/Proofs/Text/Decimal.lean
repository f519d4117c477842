import Mathlib.Data.List.Induction
import FirewallPolicy.Proofs.Text.Pieces
import FirewallPolicy.Text.Numeral

/-!
Numbers written in decimal, and how they are read.

A number is written in basic digits (`Nat.toDigits 10`). Such a text has no blanks, so trimming leaves
it as it is, and it is not the word "any".

Proved: `Numeral.read_toDigits`, a number of at most `Numeral.maxDigits` digits is read from its
decimal text; `toDigits_ofDigitChars`, digits without a needless zero in front are the decimal text of
the number that they spell.
-/

namespace FirewallPolicy.Text

/-! ## Digits -/

theorem toNat_of_isDigit {c : Char} (h : c.isDigit = true) : 48 ≤ c.toNat ∧ c.toNat ≤ 57 :=
  Char.isDigit_iff_toNat.mp h

theorem exists_ofNat_of_isDigit {c : Char} (h : c.isDigit = true) : ∃ d : Fin 10, c = Char.ofNat (48 + d) := by
  have hc := toNat_of_isDigit h
  refine ⟨⟨c.toNat - 48, by omega⟩, ?_⟩
  show c = Char.ofNat (48 + (c.toNat - 48))
  rw [Nat.add_sub_of_le hc.1, Char.ofNat_toNat]

theorem isBlank_of_isDigit {c : Char} (h : c.isDigit = true) : isBlank c = false := by
  have hc := toNat_of_isDigit h
  have hlow : ¬c.toNat ≤ 32 := by omega
  have hcontrol : ¬c.toNat ≤ 13 := by omega
  have hgap : ∀ n, 58 ≤ n → c.toNat ≠ n ∧ ¬n ≤ c.toNat := fun n hn => by omega
  simp [isBlank, hlow, hcontrol, hgap]

theorem toLower_of_isDigit {c : Char} (h : c.isDigit = true) : c.toLower ≠ 'a' := by
  have hc := toNat_of_isDigit h
  have hcapital : ¬(c.val ≥ 65) := by
    intro hge
    have : 65 ≤ c.toNat := hge
    omega
  have hsame : c.toLower = c := dif_neg fun h => hcapital h.1
  rw [hsame]
  rintro rfl
  cases h

theorem digitValue?_of_isDigit {c : Char} (h : c.isDigit = true) :
    digitValue? c = some (c.toNat - 48) := by
  have hc := toNat_of_isDigit h
  simp [digitValue?, zeros, hc.1, hc.2]

/-! ## Decimal text -/

section Decimal

variable (n : Nat)

theorem isDigit_of_mem_toDigits {c : Char} (h : c ∈ Nat.toDigits 10 n) : c.isDigit = true :=
  Nat.isDigit_of_mem_toDigits (by decide) (by decide) h

theorem toDigits_eq_cons : ∃ c rest, Nat.toDigits 10 n = c :: rest ∧ c.isDigit = true := by
  obtain ⟨c, rest, h⟩ := List.exists_cons_of_ne_nil (Nat.toDigits_ne_nil (n := n) (b := 10))
  exact ⟨c, rest, h, isDigit_of_mem_toDigits n (by simp [h])⟩

theorem isAny_toDigits : isAny (Nat.toDigits 10 n) = false := by
  obtain ⟨c, rest, h, hc⟩ := toDigits_eq_cons n
  rw [h]
  exact isAny_cons (isBlank_of_isDigit hc) (toLower_of_isDigit hc) rest

theorem trim_toDigits : trim (Nat.toDigits 10 n) = Nat.toDigits 10 n :=
  trimBy_eq_self fun _ hc => isBlank_of_isDigit (isDigit_of_mem_toDigits n hc)

theorem toList_toString : (toString (n : Int)).toList = Nat.toDigits 10 n := by
  simp [Int.toString_eq_repr, Int.repr_eq_if]

end Decimal

theorem toDigits_of_isDigit {c : Char} (h : c.isDigit = true) :
    Nat.toDigits 10 (c.toNat - 48) = [c] := by
  obtain ⟨d, rfl⟩ := exists_ofNat_of_isDigit h
  revert d
  decide

/-- Digits that do not start with a zero, unless they are one zero, are how their number is written. -/
theorem toDigits_ofDigitChars {s : List Char} (hne : s ≠ []) (hdigits : ∀ c ∈ s, c.isDigit = true)
    (hzero : s ≠ ['0'] → s.head? ≠ some '0') : Nat.toDigits 10 (Nat.ofDigitChars 10 s 0) = s := by
  induction s using List.reverseRecOn with
  | nil => exact absurd rfl hne
  | append_singleton front c ih =>
    have hc := hdigits c (by simp)
    have hlt : c.toNat - 48 < 10 := by
      have := toNat_of_isDigit hc
      omega
    have hvalue : Nat.ofDigitChars 10 (front ++ [c]) 0 =
        10 * Nat.ofDigitChars 10 front 0 + (c.toNat - 48) := by
      rw [Nat.ofDigitChars_append]
      rfl
    by_cases hfront : front = []
    · subst hfront
      rw [hvalue]
      simpa using toDigits_of_isDigit hc
    · -- What stands before the last digit is written without a zero in front, too.
      have hhead : front.head? ≠ some '0' := by
        obtain ⟨d, rest, rfl⟩ := List.exists_cons_of_ne_nil hfront
        exact hzero (by simp)
      have hwritten := ih hfront (fun d hd => hdigits d (by simp [hd])) fun _ => hhead
      have hpos : 0 < Nat.ofDigitChars 10 front 0 := by
        rw [Nat.pos_iff_ne_zero]
        intro h
        rw [h] at hwritten
        rw [← hwritten] at hhead
        exact hhead rfl
      rw [hvalue, ← Nat.toDigits_append_toDigits (by decide) hpos hlt, hwritten, toDigits_of_isDigit hc]

namespace Numeral

theorem digitsOf_of_digits {s : List Char} (h : ∀ c ∈ s, c.isDigit = true) :
    digitsOf s = s.map fun c => c.toNat - 48 := by
  induction s with
  | nil => rfl
  | cons c rest ih =>
    have hrest := ih fun d hd => h d (by simp [hd])
    simp only [digitsOf] at hrest
    simp [digitsOf, digitValue?_of_isDigit (h c (by simp)), hrest]

theorem marksBetween_of_digits {s : List Char} (h : ∀ c ∈ s, c.isDigit = true) :
    marksBetween s = true := by
  induction s with
  | nil => rfl
  | cons c rest ih =>
    have hmark : c ≠ '_' := by
      rintro rfl
      cases h '_' (by simp)
    have hrest := ih fun d hd => h d (by simp [hd])
    unfold marksBetween
    split
    · rfl
    · simp_all
    · simp_all
    · rename_i heq
      cases heq
      exact hrest

/-- Basic digits alone are read as the number they spell, unless there are too many. -/
theorem read_of_digits {c : Char} {rest : List Char} (h : ∀ d ∈ c :: rest, d.isDigit = true)
    (hlength : (c :: rest).length ≤ maxDigits) :
    read (c :: rest) = .ok (ofDigits ((c :: rest).map fun d => d.toNat - 48) : Int) := by
  have hc := h c (by simp)
  have hblank : isNumeralBlank c = false := by simp [isNumeralBlank, isBlank_of_isDigit hc]
  have hsign : sign (c :: rest) = (false, c :: rest) := by
    unfold sign
    split <;> simp_all
  have hrun : ∀ d ∈ c :: rest, isDigitOrMark d = true := by
    intro d hd
    simp [isDigitOrMark, digitValue?_of_isDigit (h d hd)]
  have hmark : c ≠ '_' := by
    rintro rfl
    cases hc
  have hlong : ¬((c :: rest).map fun d => d.toNat - 48).length > maxDigits := by
    rw [List.length_map]
    omega
  simp only [read, List.dropWhile_cons_of_neg (Bool.eq_false_iff.mp hblank), hsign,
    List.takeWhile_eq_self_iff.mpr hrun, List.dropWhile_eq_nil_iff.mpr hrun,
    digitsOf_of_digits h, marksBetween_of_digits h, if_neg hlong]
  simp [hmark]

theorem read_toDigits {n : Nat} (hlength : (Nat.toDigits 10 n).length ≤ maxDigits) :
    read (Nat.toDigits 10 n) = .ok (n : Int) := by
  have hspelt : ofDigits ((Nat.toDigits 10 n).map fun c => c.toNat - 48) = n := by
    rw [ofDigits, List.foldl_map]
    exact Nat.ofDigitChars_ten_toDigits
  have hdigits : ∀ c ∈ Nat.toDigits 10 n, c.isDigit = true := fun c hc => isDigit_of_mem_toDigits n hc
  obtain ⟨c, rest, hcons, -⟩ := toDigits_eq_cons n
  rw [hcons] at hdigits hlength hspelt ⊢
  rw [read_of_digits hdigits hlength, hspelt]

/-- No number of a packet is too long. -/
theorem read_toDigits_of_lt {n : Nat} (h : n < UInt32.size) : read (Nat.toDigits 10 n) = .ok (n : Int) := by
  have hten : (Nat.toDigits 10 n).length ≤ 10 :=
    (Nat.length_toDigits_le_iff (by decide) (by decide)).mpr (Nat.lt_trans h (by decide))
  exact read_toDigits (Nat.le_trans hten (by decide))

end Numeral

end FirewallPolicy.Text
