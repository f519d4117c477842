import Mathlib.Data.List.Basic
import FirewallPolicy.Proofs.Text.Decimal
import FirewallPolicy.Rule.Protocol

/-!
The text of a protocol is read as the protocol.

A protocol is written by its name, by its number in decimal if that has no name, or by the word for
everything. Names are looked up in capitals: every name is found under its number
(`numberOf?_of_mem_names`), and no decimal text is a name (`numberOf?_toDigits`).

Proved: `read_text`, a protocol is read from its text, unless it is any protocol and keeps a number that
does not count.
-/

namespace FirewallPolicy.Protocol

open Text

/-! ## Names and numbers -/

/-- Every name is read as its number, and none as the word for an open field. -/
theorem numberOf?_of_mem_names :
    ∀ p ∈ names, isAny p.2.toList = false ∧ numberOf? p.2.toList = some p.1 := by
  decide +kernel

theorem capital_of_isDigit {c : Char} (h : c.isDigit = true) : capital c = [c] := by
  obtain ⟨d, rfl⟩ := exists_ofNat_of_isDigit h
  revert d
  decide

theorem capitals_toDigits (n : Nat) : capitals (Nat.toDigits 10 n) = Nat.toDigits 10 n := by
  have hdigits : ∀ c ∈ Nat.toDigits 10 n, capital c = [c] := fun c hc =>
    capital_of_isDigit (isDigit_of_mem_toDigits n hc)
  rw [capitals, List.flatMap_congr hdigits]
  simp

/-- No name is all digits. -/
theorem numberOf?_toDigits (n : Nat) : numberOf? (Nat.toDigits 10 n) = none := by
  have hletter : ∀ p ∈ spellings, (p.1.toList.any fun c => !c.isDigit) = true := by decide +kernel
  rw [numberOf?, trim_toDigits, capitals_toDigits, List.lookup_eq_none_iff]
  intro p hp
  obtain ⟨c, hc, hnot⟩ := List.any_eq_true.mp (hletter p hp)
  rw [bne_iff_ne]
  intro heq
  rw [← heq, String.toList_ofList] at hc
  rw [isDigit_of_mem_toDigits n hc] at hnot
  cases hnot

theorem nameOf_natCast (n : Nat) :
    (∃ p ∈ names, p.1 = n ∧ nameOf n = p.2) ∨ nameOf n = toString (n : Int) := by
  unfold nameOf
  cases hfind : names.find? fun p => (p.1 : Int) == n with
  | none => exact Or.inr rfl
  | some p =>
    have hnumber : p.1 = n := by
      have heq := List.find?_some hfind
      rwa [beq_iff_eq, Int.ofNat_inj] at heq
    exact Or.inl ⟨p, List.mem_of_find?_eq_some hfind, hnumber, rfl⟩

/-! ## Protocols of rules -/

theorem isBlank_of_mem_nameOf (n : Nat) {c : Char} (h : c ∈ (nameOf n).toList) : isBlank c = false := by
  have hnames : ∀ p ∈ names, p.2.toList.any isBlank = false := by decide +kernel
  rcases nameOf_natCast n with ⟨p, hp, -, hname⟩ | hname
  · rw [hname] at h
    exact Bool.eq_false_iff.mpr (List.any_eq_false.mp (hnames p hp) c h)
  · rw [hname, toList_toString] at h
    exact isBlank_of_isDigit (isDigit_of_mem_toDigits n h)

variable {p : Protocol}

def Plain (p : Protocol) : Prop := p = wildcard ∨ p.any = false

theorem exists_number (h : p.any = false) : ∃ n : Nat, n < UInt8.size ∧ p.number = n := by
  have hfits := p.fits.resolve_left (by simp [h])
  have hmax : (Quantity.protocol.maximum : Int) = 255 := rfl
  refine ⟨p.number.toNat, ?_, ?_⟩
  · show p.number.toNat < 256
    omega
  · omega

theorem ofNumber_number (h : p.any = false) : ofNumber false p.number = .ok p := by
  obtain ⟨any, number, hfits⟩ := p
  cases h
  exact dif_pos hfits

theorem isBlank_of_mem_text {c : Char} (hc : c ∈ p.text.toList) : isBlank c = false := by
  unfold text at hc
  split at hc
  · have hany : "Any".toList.any isBlank = false := by decide
    exact Bool.eq_false_iff.mpr (List.any_eq_false.mp hany c hc)
  · rename_i hone
    obtain ⟨n, -, hn⟩ := exists_number (Bool.eq_false_iff.mpr hone)
    rw [hn] at hc
    exact isBlank_of_mem_nameOf n hc

theorem read_text (h : p.Plain) : read p.text.toList = .ok p := by
  rcases h with rfl | hone
  · decide +kernel
  · obtain ⟨n, hlt, hn⟩ := exists_number hone
    have htext : p.text = nameOf n := by rw [text, hone, hn]; rfl
    have htrim : trim (nameOf n).toList = (nameOf n).toList :=
      trimBy_eq_self fun c hc => isBlank_of_mem_nameOf n hc
    have hread := ofNumber_number hone
    rw [hn] at hread
    rw [read, htext, htrim]
    rcases nameOf_natCast n with ⟨q, hq, rfl, hname⟩ | hname
    · obtain ⟨hany, hnumber⟩ := numberOf?_of_mem_names q hq
      simp only [hname, hany, hnumber, Bool.false_eq_true, if_false]
      exact hread
    · have hdecimal := Numeral.read_toDigits_of_lt (Nat.lt_trans hlt (by decide))
      simp only [hname, toList_toString, isAny_toDigits, numberOf?_toDigits, hdecimal,
        Bool.false_eq_true, if_false]
      exact hread

end FirewallPolicy.Protocol
