import Mathlib.Order.Interval.Finset.Nat
import Mathlib.SetTheory.Cardinal.Finite
import FirewallPolicy.Proofs.Dump.Spelling

/-!
Networks in a cell of addresses.

The length behind the slash is written in digits, as a netmask or as a hostmask; all three are read as the same
length (`readMask_of_digits`, `lengthOfMask_of_netmask`, `lengthOfMask_of_hostmask`). The range of a network
(`Network.range`) starts at a multiple of its size, so it ends before the addresses do, and it has the addresses
that agree with the given one in the leading bits (`agree_iff`).

Proved: `network_entries_denote_their_prefix`, for every address and length, and that an entry is refused as an
IPv6 network exactly if it is one. A length may be written with zeros in front, up to so many digits
(`a_length_with_too_many_zeros_is_refused`).
-/

namespace FirewallPolicy

open Text

/-! ## Ranges -/

namespace Range

def addressesEquiv (r : Range .address) : { x : Address // r.Contains x.value } ≃ Finset.Icc r.low r.high where
  toFun x := ⟨x.1.value, Finset.mem_Icc.mpr x.2⟩
  invFun n := ⟨⟨n.1, Nat.lt_of_le_sub_one (by decide) ((Finset.mem_Icc.mp n.2).2.trans r.high_le)⟩,
    Finset.mem_Icc.mp n.2⟩
  left_inv _ := rfl
  right_inv _ := rfl

theorem card_addresses (r : Range .address) :
    Nat.card { x : Address // r.Contains x.value } = r.high + 1 - r.low := by
  rw [Nat.card_congr r.addressesEquiv, Nat.card_eq_fintype_card, Fintype.card_coe, Nat.card_Icc]

end Range

namespace Address

/-! ## Leading bits -/

/-- The addresses agree in so many of the highest bits. -/
def Agree (p : Nat) (x a : Address) : Prop := ∀ i < p, x.value.testBit (31 - i) = a.value.testBit (31 - i)

/-- What is left when the other bits are dropped is the same. -/
theorem agree_iff {p : Nat} (hp : p ≤ 32) (x a : Address) :
    Agree p x a ↔ x.value / Nat.pow 2 (32 - p) = a.value / Nat.pow 2 (32 - p) := by
  have hbit : ∀ (n j : Nat), (n / Nat.pow 2 (32 - p)).testBit j = n.testBit (j + (32 - p)) := by
    intro n j
    exact Nat.testBit_div_two_pow n j
  constructor
  · intro h
    refine Nat.eq_of_testBit_eq fun j => ?_
    rw [hbit, hbit]
    by_cases hj : j < p
    · have hsame := h (p - 1 - j) (by omega)
      rwa [show 31 - (p - 1 - j) = j + (32 - p) by omega] at hsame
    · -- No address has a bit there.
      have hhigh : ∀ y : Address, y.value.testBit (j + (32 - p)) = false := by
        intro y
        have hvalue : y.value < 2 ^ 32 := y.value_lt
        have hpow : 2 ^ 32 ≤ 2 ^ (j + (32 - p)) := Nat.pow_le_pow_right (by decide) (by omega)
        exact Nat.testBit_lt_two_pow (Nat.lt_of_lt_of_le hvalue hpow)
      rw [hhigh, hhigh]
  · intro h i hi
    have hsame := congrArg (fun n => n.testBit (p - 1 - i)) h
    simp only [hbit] at hsame
    rwa [show p - 1 - i + (32 - p) = 31 - i by omega] at hsame

/-! ## The range of a network -/

namespace Network

variable (n : Network)

theorem size_pos : 0 < n.size := Nat.two_pow_pos _

theorem size_dvd : n.size ∣ UInt32.size :=
  Nat.pow_dvd_pow 2 (Nat.sub_le 32 n.length)

/-- The addresses of a network start at a multiple of their number. -/
theorem first_eq : n.first = n.address.value / n.size * n.size := by
  have hdiv := Nat.div_add_mod n.address.value n.size
  rw [first, Nat.mul_comm]
  omega

/-- So the last of them is an address. -/
theorem last_lt : n.last < UInt32.size := by
  obtain ⟨k, hk⟩ := n.size_dvd
  have hpos := n.size_pos
  have hvalue : n.address.value < n.size * k := by
    rw [← hk]
    exact n.address.value_lt
  have hquotient : n.address.value / n.size < k := Nat.div_lt_of_lt_mul hvalue
  have hend : (n.address.value / n.size + 1) * n.size ≤ UInt32.size := by
    rw [hk, Nat.mul_comm n.size k]
    exact Nat.mul_le_mul_right n.size hquotient
  rw [Nat.add_mul, ← first_eq] at hend
  unfold last
  omega

theorem first_le_last : n.first ≤ n.last := Nat.le_add_right _ _

def range : Range .address where
  low := n.first
  high := n.last
  low_le := Nat.le_sub_one_of_lt (Nat.lt_of_le_of_lt n.first_le_last n.last_lt)
  high_le := Nat.le_sub_one_of_lt n.last_lt

theorem ofNetwork_eq : Range.ofNetwork n = .ok n.range := Dump.ofBounds_eq n.range

theorem contains_range_iff (hlength : n.length ≤ 32) (x : Address) :
    n.range.Contains x.value ↔ Agree n.length x n.address := by
  rw [agree_iff hlength]
  exact Range.contains_ofNetwork n.ofNetwork_eq x.value

theorem card_range : Nat.card { x : Address // n.range.Contains x.value } = 2 ^ (32 - n.length) := by
  have hpos := n.size_pos
  have hspan : n.last + 1 - n.first = n.size := by
    unfold last
    omega
  rw [Range.card_addresses]
  exact hspan

end Network

/-! ## Prefix lengths -/

/-- A length in digits is read unless there are too many of them. -/
theorem readMask_of_digits {p : Nat} (hp : p ≤ 32) {digits : List Char} (hne : digits ≠ [])
    (hdigits : ∀ c ∈ digits, c.isDigit = true) (hvalue : Nat.ofDigitChars 10 digits 0 = p) :
    readMask digits = if digits.length ≤ Numeral.maxDigits then some p else none := by
  by_cases hfew : digits.length ≤ Numeral.maxDigits
  · rw [if_pos hfew, readMask, readLength_eq_some_iff.mpr ⟨hne, hdigits, hfew, hvalue, hp⟩]
    rfl
  · have hlength : readLength 32 digits = none := by
      rw [Option.eq_none_iff_forall_ne_some]
      intro length hsome
      exact hfew (readLength_eq_some_iff.mp hsome).2.2.1
    rw [if_neg hfew, readMask, hlength]
    -- Digits alone are no mask either.
    cases hdotted : readDotted digits with
    | error fault => rfl
    | ok mask =>
      have hdot := mask.dot_mem_text
      rw [← eq_text_of_readDotted hdotted] at hdot
      cases hdigits '.' hdot

theorem readMask_text (mask : Address) : readMask mask.text.toList = lengthOfMask mask.value := by
  have hlength : readLength 32 mask.text.toList = none := by
    rw [Option.eq_none_iff_forall_ne_some]
    intro length hsome
    cases (readLength_eq_some_iff.mp hsome).2.1 '.' mask.dot_mem_text
  rw [readMask, hlength, readDotted_text]
  rfl

theorem lengthOfMask_of_netmask {p : Nat} (hp : p ≤ 32) {mask : Nat} (h : mask + 2 ^ (32 - p) = 2 ^ 32) :
    lengthOfMask mask = some p := by
  have hall : ∀ p < 33, lengthOfMask (netmask p) = some p := by decide +kernel
  have hmask : mask = netmask p := by
    show mask = 2 ^ 32 - 2 ^ (32 - p)
    omega
  rw [hmask]
  exact hall p (by omega)

/-- A mask with ones at the low end is no netmask, unless it has no zeros or no ones. -/
theorem lengthOfMask_of_hostmask {p : Nat} (hlow : 1 ≤ p) (hhigh : p ≤ 31) {mask : Nat}
    (h : mask + 1 = 2 ^ (32 - p)) : lengthOfMask mask = some p := by
  have hall : ∀ p < 32, 1 ≤ p → lengthOfMask (hostmask p) = some p := by decide +kernel
  have hmask : mask = hostmask p := by
    show mask = 2 ^ (32 - p) - 1
    omega
  rw [hmask]
  exact hall p (by omega) hlow

end Address

/-! ## Entries -/

namespace Dump

open Address

theorem readNetwork_of_dotted {entry : List Char} {n : Network} (h : dottedNetwork? entry = some n) :
    readNetwork entry = .ok n.range := by
  rw [readNetwork, Address.readNetwork, h]
  exact n.ofNetwork_eq

theorem readNetwork_of_not_dotted {entry : List Char} (h : dottedNetwork? entry = none) :
    readNetwork entry = .error (.address (if isColonNetwork entry then .version6 else .notNetwork entry)) := by
  rw [readNetwork, Address.readNetwork, h]
  rfl

theorem readAddressRange_of_slash {entry : List Char} (h : '/' ∈ entry) :
    readAddressRange entry = readNetwork entry :=
  if_pos (List.contains_iff_mem.mpr h)

/-- No text is a network of both versions. -/
theorem not_colonNetwork_of_address (a : Address) (mask : List Char) :
    ¬ColonNetwork (a.text.toList ++ '/' :: mask) := by
  intro h
  generalize hentry : a.text.toList ++ '/' :: mask = entry at h
  cases h with
  | intro haddress _ _ _ _ =>
    have hcut := splitOnce_append (not_mem_text a (c := '/') (by decide) (by decide)) mask
    rw [hentry, splitOnce_append haddress.slash_not_mem, Option.some.injEq, Prod.mk.injEq] at hcut
    have hcolon := haddress.colon_mem
    rw [hcut.1] at hcolon
    exact not_mem_text a (by decide) (by decide) hcolon

/-- An entry with an address before its slash is read by what stands behind it. -/
theorem readAddressRange_of_mask (a : Address) {mask : List Char} (hslash : '/' ∉ mask) :
    readAddressRange (a.text.toList ++ '/' :: mask) =
      match readMask mask with
      | some length => .ok (Network.range ⟨a, length⟩)
      | none => .error (.address (.notNetwork (a.text.toList ++ '/' :: mask))) := by
  have hmem : '/' ∈ a.text.toList ++ '/' :: mask := by simp
  have hdotted : dottedNetwork? (a.text.toList ++ '/' :: mask) = (readMask mask).map (⟨a, ·⟩) := by
    simp only [dottedNetwork?, split_pair (not_mem_text a (by decide) (by decide)) hslash, readDotted_text]
    cases readMask mask <;> rfl
  rw [readAddressRange_of_slash hmem]
  cases hmask : readMask mask with
  | some length => exact readNetwork_of_dotted (by rw [hdotted, hmask]; rfl)
  | none =>
    have hnot : ¬isColonNetwork (a.text.toList ++ '/' :: mask) = true := fun hcolon =>
      not_colonNetwork_of_address a mask ((isColonNetwork_iff hmem).mp hcolon)
    rw [readNetwork_of_not_dotted (by rw [hdotted, hmask]; rfl), if_neg hnot]

theorem readAddressRange_of_digits (a : Address) {p : Nat} (hp : p ≤ 32) {digits : List Char} (hne : digits ≠ [])
    (hdigits : ∀ c ∈ digits, c.isDigit = true) (hvalue : Nat.ofDigitChars 10 digits 0 = p) :
    readAddressRange (a.text.toList ++ '/' :: digits) =
      if digits.length ≤ Numeral.maxDigits then .ok (Network.range ⟨a, p⟩)
      else .error (.address (.notNetwork (a.text.toList ++ '/' :: digits))) := by
  have hslash : '/' ∉ digits := fun hmem => by cases hdigits '/' hmem
  rw [readAddressRange_of_mask a hslash, readMask_of_digits hp hne hdigits hvalue]
  by_cases hfew : digits.length ≤ Numeral.maxDigits
  · simp only [if_pos hfew]
  · simp only [if_neg hfew]

theorem readAddressRange_of_lengthOfMask (a mask : Address) {p : Nat} (h : lengthOfMask mask.value = some p) :
    readAddressRange (a.text.toList ++ '/' :: mask.text.toList) = .ok (Network.range ⟨a, p⟩) := by
  rw [readAddressRange_of_mask a (not_mem_text mask (by decide) (by decide)), readMask_text, h]

/-- An entry with a slash is refused as a network of the other version exactly if it is one. -/
theorem readAddressRange_eq_version6_iff {entry : List Char} (hslash : '/' ∈ entry) :
    readAddressRange entry = .error (.address .version6) ↔ ColonNetwork entry := by
  rw [readAddressRange_of_slash hslash]
  cases hdotted : dottedNetwork? entry with
  | some n =>
    obtain ⟨mask, hentry, -⟩ := eq_append_of_dottedNetwork? hslash hdotted
    rw [readNetwork_of_dotted hdotted, hentry]
    exact iff_of_false (by simp) (not_colonNetwork_of_address n.address mask)
  | none =>
    rw [readNetwork_of_not_dotted hdotted, ← isColonNetwork_iff hslash]
    cases isColonNetwork entry <;> simp

/-- Every network denotes its prefix. Behind an address and a slash, a length up to 32 may be written in digits,
zeros in front included as long as there are not too many digits, as a netmask, or as a hostmask unless that
is a netmask, too. All of them are read as one range. It has the addresses that agree with the given one in so many
leading bits, and as many as the other bits allow. Any other network, of the other version, is refused as such. -/
theorem network_entries_denote_their_prefix (a : Address) {p : Nat} (hp : p ≤ 32) :
    (∃ r : Range .address,
      (∀ digits : List Char, digits ≠ [] → (∀ c ∈ digits, c.isDigit = true) → Nat.ofDigitChars 10 digits 0 = p →
        readAddressRange (a.text.toList ++ '/' :: digits) =
          if digits.length ≤ Numeral.maxDigits then .ok r
          else .error (.address (.notNetwork (a.text.toList ++ '/' :: digits)))) ∧
      (∀ mask : Address, mask.value + 2 ^ (32 - p) = 2 ^ 32 →
        readAddressRange (a.text.toList ++ '/' :: mask.text.toList) = .ok r) ∧
      (∀ mask : Address, 1 ≤ p → p ≤ 31 → mask.value + 1 = 2 ^ (32 - p) →
        readAddressRange (a.text.toList ++ '/' :: mask.text.toList) = .ok r) ∧
      (∀ x : Address, r.Contains x.value ↔ ∀ i < p, x.value.testBit (31 - i) = a.value.testBit (31 - i)) ∧
      r.Contains a.value ∧ r.low ≤ r.high ∧ Nat.card { x : Address // r.Contains x.value } = 2 ^ (32 - p)) ∧
    (∀ entry : List Char, '/' ∈ entry →
      (ColonNetwork entry ↔ readAddressRange entry = .error (.address .version6))) ∧
    (Invalid.address .version6).message = "IPv6 not supported." := by
  refine ⟨⟨Network.range ⟨a, p⟩, ?_, ?_, ?_, ?_, ?_, Network.first_le_last _, Network.card_range _⟩, ?_, rfl⟩
  · intro digits
    exact readAddressRange_of_digits a hp
  · intro mask hmask
    exact readAddressRange_of_lengthOfMask a mask (lengthOfMask_of_netmask hp hmask)
  · intro mask hlow hhigh hmask
    exact readAddressRange_of_lengthOfMask a mask (lengthOfMask_of_hostmask hlow hhigh hmask)
  · exact Network.contains_range_iff ⟨a, p⟩ hp
  · exact (Network.contains_range_iff ⟨a, p⟩ hp a).mpr fun _ _ => rfl
  · intro entry hslash
    exact (readAddressRange_eq_version6_iff hslash).symm

/-- The address 10.1.2.3. -/
def privateHost : Address := ⟨167838211, by decide⟩

/-- Three ways to write one network, and a network of the other version. -/
theorem private_network_denotes_its_prefix :
    (∃ r : Range .address, readAddressRange "10.1.2.3/008".toList = .ok r ∧
      readAddressRange "10.1.2.3/255.0.0.0".toList = .ok r ∧
      readAddressRange "10.1.2.3/0.255.255.255".toList = .ok r ∧
      Nat.card { x : Address // r.Contains x.value } = 2 ^ 24) ∧
    readAddressRange "2001:db8::1.2.3.4%eth0/64".toList = .error (.address .version6) := by
  obtain ⟨⟨r, hdigits, hnetmask, hhostmask, -, -, -, hcard⟩, hcolon, -⟩ :=
    network_entries_denote_their_prefix privateHost (p := 8) (by decide)
  have hshort : "10.1.2.3/008".toList = privateHost.text.toList ++ '/' :: "008".toList := by decide +kernel
  have hnet : "10.1.2.3/255.0.0.0".toList =
      privateHost.text.toList ++ '/' :: (Address.text ⟨4278190080, by decide⟩).toList := by decide +kernel
  have hhost : "10.1.2.3/0.255.255.255".toList =
      privateHost.text.toList ++ '/' :: (Address.text ⟨16777215, by decide⟩).toList := by decide +kernel
  refine ⟨⟨r, ?_, ?_, ?_, hcard⟩, ?_⟩
  · rw [hshort]
    exact hdigits "008".toList (by decide) (List.all_eq_true.mp (by decide)) (by decide)
  · rw [hnet]
    exact hnetmask ⟨4278190080, by decide⟩ (by decide)
  · rw [hhost]
    exact hhostmask ⟨16777215, by decide⟩ (by decide) (by decide) (by decide)
  · exact (hcolon _ (by decide)).mp ((isColonNetwork_iff (by decide)).mp (by decide +kernel))

/-- A length may have zeros in front, but not so many that it has more digits than are ever read. -/
theorem a_length_with_too_many_zeros_is_refused :
    let digits := List.replicate Numeral.maxDigits '0' ++ ['8']
    (∀ c ∈ digits, c.isDigit = true) ∧ Nat.ofDigitChars 10 digits 0 = 8 ∧
      ∀ r, readAddressRange (privateHost.text.toList ++ '/' :: digits) ≠ .ok r := by
  intro digits
  have hdigits : ∀ c ∈ digits, c.isDigit = true := by
    intro c hc
    rcases List.mem_append.mp hc with hc | hc
    · rw [List.eq_of_mem_replicate hc]
      rfl
    · rw [List.mem_singleton.mp hc]
      rfl
  have hne : digits ≠ [] := List.append_ne_nil_of_right_ne_nil _ (List.cons_ne_nil _ _)
  have hvalue : Nat.ofDigitChars 10 digits 0 = 8 := by decide +kernel
  have hmany : ¬digits.length ≤ Numeral.maxDigits := by simp [digits]
  refine ⟨hdigits, hvalue, ?_⟩
  clear_value digits
  intro r hr
  rw [readAddressRange_of_digits privateHost (by decide) hne hdigits hvalue, if_neg hmany] at hr
  cases hr

end Dump

end FirewallPolicy
