import Mathlib.Data.Set.Function
import FirewallPolicy.Proofs.Address.Colon
import FirewallPolicy.Proofs.Dump.Cell

/-!
Addresses in a cell, and their one text each.

An address is written as its four octets in decimal with dots between them, the highest first
(`Address.text_of_octets`). This text and no other is read as the address (`readAddress_eq_ok_iff`), once the
blanks around it are trimmed. Every other text is refused, for one of two reasons: it is the text of an IPv6
address (`ColonAddress`), or it is no address at all. The texts of the two versions do not meet, because only
one of them has a colon in it.

Proved: `addresses_have_one_text`, and that a range of addresses is read from its text.
-/

namespace FirewallPolicy

open Text

namespace Address

/-- The octets of an address are the digits of its number to the base 256, and its text is theirs. -/
theorem text_of_octets (a : Address) :
    ∃ w x y z : Nat, (w < 256 ∧ x < 256 ∧ y < 256 ∧ z < 256) ∧
      a.value = ((w * 256 + x) * 256 + y) * 256 + z ∧ a.text = s!"{w}.{x}.{y}.{z}" := by
  have hvalue : a.value < 4294967296 := a.value_lt
  refine ⟨a.value >>> 24, a.value >>> 16 % 256, a.value >>> 8 % 256, a.value % 256, ?_, ?_, rfl⟩
  · omega
  · omega

/-- No text is an address of both versions. -/
theorem not_colonAddress_text (a : Address) : ¬ColonAddress a.text.toList := fun h =>
  not_mem_text a (by decide) (by decide) h.colon_mem

end Address

namespace Dump

open Address

/-- A text that is no address of this version is refused by whether it is one of the other. -/
theorem readAddress_of_not_text {t : List Char} (h : ∀ a : Address, trim t ≠ a.text.toList) :
    readAddress t = .error (.address (if isColonAddress (trim t) then .version6 else .notAddress (trim t))) := by
  rw [readAddress, Address.read]
  cases hdotted : readDotted (trim t) with
  | ok a => exact absurd (eq_text_of_readDotted hdotted) (h a)
  | error fault => rfl

theorem readAddress_eq_version6_iff {t : List Char} :
    readAddress t = .error (.address .version6) ↔ ColonAddress (trim t) := by
  by_cases htext : ∃ a : Address, trim t = a.text.toList
  · obtain ⟨a, ha⟩ := htext
    rw [readAddress_eq_ok_iff.mpr ha, ha]
    exact iff_of_false (by simp) a.not_colonAddress_text
  · rw [not_exists] at htext
    rw [readAddress_of_not_text htext, ← isColonAddress_iff]
    cases isColonAddress (trim t) <;> simp

theorem readAddress_eq_notAddress_iff {t : List Char} :
    readAddress t = .error (.address (.notAddress (trim t))) ↔
      ¬ColonAddress (trim t) ∧ ∀ a : Address, trim t ≠ a.text.toList := by
  constructor
  · intro h
    refine ⟨fun hcolon => ?_, fun a ha => ?_⟩
    · rw [readAddress_eq_version6_iff.mpr hcolon] at h
      cases h
    · rw [readAddress_eq_ok_iff.mpr ha] at h
      cases h
  · rintro ⟨hcolon, htext⟩
    rw [← isColonAddress_iff] at hcolon
    rw [readAddress_of_not_text htext, if_neg hcolon]

/-- Every number of 32 bits has one text that it is read from, blanks around it aside. -/
theorem bijOn_text :
    Set.BijOn (fun n : Fin UInt32.size => (Address.mk n n.isLt).text.toList) Set.univ
      {s | ∃ t a, trim t = s ∧ readAddress t = .ok a} := by
  refine ⟨?_, ?_, ?_⟩
  · intro n _
    exact ⟨_, ⟨n, n.isLt⟩, trim_text _, readAddress_text _⟩
  · intro n _ k _ hsame
    have haddress := text_injective (String.toList_inj.mp hsame)
    exact Fin.ext (congrArg Address.value haddress)
  · rintro s ⟨t, a, hs, hread⟩
    refine ⟨⟨a.value, a.value_lt⟩, Set.mem_univ _, ?_⟩
    rw [← hs, readAddress_eq_ok_iff.mp hread]

/-- An address is read exactly from its text, blanks around it aside: the decimal texts of its four octets,
between dots. So the numbers of 32 bits and the trimmed texts from which an address is read correspond one to
one. Every other text is refused, as an address of the other version if it is one. A range is read from its
text, whichever of its bounds is the higher. -/
theorem addresses_have_one_text :
    (∀ (t : List Char) (a : Address), readAddress t = .ok a ↔ trim t = a.text.toList) ∧
    (∀ a : Address, ∃ w x y z : Nat, (w < 256 ∧ x < 256 ∧ y < 256 ∧ z < 256) ∧
      a.value = ((w * 256 + x) * 256 + y) * 256 + z ∧ a.text = s!"{w}.{x}.{y}.{z}") ∧
    Set.BijOn (fun n : Fin UInt32.size => (Address.mk n n.isLt).text.toList) Set.univ
      {s | ∃ t a, trim t = s ∧ readAddress t = .ok a} ∧
    (∀ t, readAddress t = .error (.address .version6) ↔ ColonAddress (trim t)) ∧
    (∀ t, readAddress t = .error (.address (.notAddress (trim t))) ↔
      ¬ColonAddress (trim t) ∧ ∀ a : Address, trim t ≠ a.text.toList) ∧
    (Invalid.address .version6).message = "IPv6 not supported." ∧
    ∀ r : Range .address, readAddressRange r.text.toList = .ok r := by
  refine ⟨?_, text_of_octets, bijOn_text, ?_, ?_, rfl, readAddressRange_text⟩
  · intro t a
    exact readAddress_eq_ok_iff
  · intro t
    exact readAddress_eq_version6_iff
  · intro t
    exact readAddress_eq_notAddress_iff

-- A zero in front is refused, and so are digits of another script and an address mapped into the other version.
example :
    readAddress "\u00a010.1.2.3\t".toList = .ok ⟨167838211, by decide⟩ ∧
      readAddress "010.1.2.3".toList = .error (.address (.notAddress "010.1.2.3".toList)) ∧
      readAddress "\u0661\u0660.1.2.3".toList = .error (.address (.notAddress "\u0661\u0660.1.2.3".toList)) ∧
      readAddress "::ffff:10.1.2.3".toList = .error (.address .version6) := by
  decide +kernel

end Dump

end FirewallPolicy
