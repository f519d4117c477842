import FirewallPolicy.Proofs.Meaning
import FirewallPolicy.Text.Utf8

/-!
Decoding undoes the standard encoding, and accepts nothing else.

The decoder tells a character by its first byte and then looks at the bytes that belong to it
(`CharBytes`). These are the bytes that the standard encoding gives the character (`charBytes_encode`), and
no other bytes pass (`CharBytes.eq_encode`): a longer form than needed, a surrogate or a number past the last
character fails at its second byte (`secondFits_iff`).

Proved: `decode_eq_ok_iff`, bytes are decoded to a text exactly if they are its encoding.
-/

namespace FirewallPolicy.Text.Utf8

/-! ## One character -/

/-- The bytes spell the character with the number: the first of them tells how many follow, and each that
follows brings six bits. -/
inductive CharBytes (n : Nat) : List UInt8 → Prop
  | one {a : UInt8} : a < 0x80 → n = a.toNat → CharBytes n [a]
  | two {a b : UInt8} : 0xC2 ≤ a → a < 0xE0 → isContinuation b = true →
      n = a.toNat % 32 * 64 + payload b → CharBytes n [a, b]
  | three {a b c : UInt8} : 0xE0 ≤ a → a < 0xF0 → secondFits a b = true → isContinuation c = true →
      n = a.toNat % 16 * 4096 + payload b * 64 + payload c → CharBytes n [a, b, c]
  | four {a b c d : UInt8} : 0xF0 ≤ a → a < 0xF5 → secondFits a b = true → isContinuation c = true →
      isContinuation d = true →
      n = a.toNat % 8 * 262144 + payload b * 4096 + payload c * 64 + payload d → CharBytes n [a, b, c, d]

theorem isContinuation_iff (b : UInt8) : isContinuation b = true ↔ 128 ≤ b.toNat ∧ b.toNat < 192 := by
  simp [isContinuation, UInt8.le_iff_toNat_le, UInt8.lt_iff_toNat_lt]

theorem secondFits_iff (a b : UInt8) :
    secondFits a b = true ↔ (128 ≤ b.toNat ∧ b.toNat < 192) ∧ (a.toNat = 224 → 160 ≤ b.toNat) ∧
      (a.toNat = 237 → b.toNat < 160) ∧ (a.toNat = 240 → 144 ≤ b.toNat) ∧
      (a.toNat = 244 → b.toNat < 144) := by
  have hfirst : ∀ n : UInt8, a = n ↔ a.toNat = n.toNat := fun n => UInt8.toNat_inj.symm
  simp only [secondFits, Bool.and_eq_true, isContinuation_iff, beq_iff_eq, hfirst, UInt8.reduceToNat]
  refine and_congr_right fun _ => ?_
  repeat' split
  all_goals
    simp only [decide_eq_true_eq, eq_self, true_iff, UInt8.le_iff_toNat_le, UInt8.lt_iff_toNat_lt,
      UInt8.reduceToNat]
    omega

theorem toNat_ofNat_of_lt {n : Nat} (h : n < 256) : (UInt8.ofNat n).toNat = n := by
  rw [UInt8.toNat_ofNat']
  exact Nat.mod_eq_of_lt h

theorem charBytes_encode (c : Char) : CharBytes c.toNat (String.utf8EncodeChar c) := by
  have hvalid : c.toNat < 0xD800 ∨ 0xDFFF < c.toNat ∧ c.toNat < 0x110000 := c.valid
  have hval : c.val.toNat = c.toNat := rfl
  simp only [String.utf8EncodeChar, hval]
  generalize c.toNat = n at hvalid
  have hlast := toNat_ofNat_of_lt (n := n % 64 + 128) (by omega)
  have hmiddle := toNat_ofNat_of_lt (n := n / 64 % 64 + 128) (by omega)
  split
  · have ha := toNat_ofNat_of_lt (n := n) (by omega)
    refine .one ?_ ha.symm
    simp only [UInt8.lt_iff_toNat_lt, UInt8.reduceToNat, ha]
    omega
  split
  · have ha := toNat_ofNat_of_lt (n := n / 64 % 32 + 192) (by omega)
    refine .two ?_ ?_ ?_ ?_
    all_goals
      simp only [UInt8.le_iff_toNat_le, UInt8.lt_iff_toNat_lt, UInt8.reduceToNat, isContinuation_iff, payload,
        ha, hlast]
      omega
  split
  · have ha := toNat_ofNat_of_lt (n := n / 4096 % 16 + 224) (by omega)
    refine .three ?_ ?_ ?_ ?_ ?_
    all_goals
      simp only [UInt8.le_iff_toNat_le, UInt8.lt_iff_toNat_lt, UInt8.reduceToNat, isContinuation_iff,
        secondFits_iff, payload, ha, hmiddle, hlast]
      omega
  · have ha := toNat_ofNat_of_lt (n := n / 262144 % 8 + 240) (by omega)
    have hb := toNat_ofNat_of_lt (n := n / 4096 % 64 + 128) (by omega)
    refine .four ?_ ?_ ?_ ?_ ?_ ?_
    all_goals
      simp only [UInt8.le_iff_toNat_le, UInt8.lt_iff_toNat_lt, UInt8.reduceToNat, isContinuation_iff,
        secondFits_iff, payload, ha, hb, hmiddle, hlast]
      omega

theorem cons_eq_ofNat {n : Nat} {a : UInt8} {bytes bytes' : List UInt8} (h : n = a.toNat)
    (hbytes : bytes = bytes') : a :: bytes = UInt8.ofNat n :: bytes' := by
  rw [h, UInt8.ofNat_toNat, hbytes]

theorem val_ofNat {n : Nat} (h : n.isValidChar) : (Char.ofNat n).val.toNat = n := by
  rw [Char.ofNat, dif_pos h]
  rfl

/-- No other bytes spell a character. -/
theorem CharBytes.eq_encode {n : Nat} {bytes : List UInt8} (h : CharBytes n bytes) :
    bytes = String.utf8EncodeChar (Char.ofNat n) := by
  unfold String.utf8EncodeChar
  cases h with
  | one ha hn =>
    simp only [UInt8.lt_iff_toNat_lt, UInt8.reduceToNat] at ha
    simp only [val_ofNat (show n.isValidChar from Or.inl (by omega))]
    rw [if_pos (by omega)]
    exact cons_eq_ofNat hn rfl
  | two hlow hhigh hb hn =>
    simp only [UInt8.le_iff_toNat_le, UInt8.lt_iff_toNat_lt, UInt8.reduceToNat, isContinuation_iff,
      payload] at hlow hhigh hb hn
    simp only [val_ofNat (show n.isValidChar from Or.inl (by omega))]
    rw [if_neg (by omega), if_pos (by omega)]
    exact cons_eq_ofNat (by omega) (cons_eq_ofNat (by omega) rfl)
  | three hlow hhigh hb hc hn =>
    simp only [UInt8.le_iff_toNat_le, UInt8.lt_iff_toNat_lt, UInt8.reduceToNat, isContinuation_iff,
      secondFits_iff, payload] at hlow hhigh hb hc hn
    have hvalid : n.isValidChar := by
      unfold Nat.isValidChar
      omega
    simp only [val_ofNat hvalid]
    rw [if_neg (by omega), if_neg (by omega), if_pos (by omega)]
    exact cons_eq_ofNat (by omega) (cons_eq_ofNat (by omega) (cons_eq_ofNat (by omega) rfl))
  | four hlow hhigh hb hc hd hn =>
    simp only [UInt8.le_iff_toNat_le, UInt8.lt_iff_toNat_lt, UInt8.reduceToNat, isContinuation_iff,
      secondFits_iff, payload] at hlow hhigh hb hc hd hn
    have hvalid : n.isValidChar := by
      unfold Nat.isValidChar
      omega
    simp only [val_ofNat hvalid]
    rw [if_neg (by omega), if_neg (by omega), if_neg (by omega)]
    exact cons_eq_ofNat (by omega) (cons_eq_ofNat (by omega) (cons_eq_ofNat (by omega)
      (cons_eq_ofNat (by omega) rfl)))

/-! ## Texts -/

def encode (text : List Char) : List UInt8 := text.flatMap String.utf8EncodeChar

theorem toUTF8_eq_encode (text : String) : text.toUTF8.data.toList = encode text.toList := by
  have h : text.toUTF8 = text.toList.utf8Encode := by
    rw [← String.toByteArray_ofList, String.ofList_toList]
    rfl
  rw [h, List.utf8Encode, List.toList_data_toByteArray]
  rfl

/-- The bytes of a character are taken off the front. -/
theorem decodeFrom_append {n : Nat} {bytes : List UInt8} (h : CharBytes n bytes) (position : Nat)
    (rest : List UInt8) :
    decodeFrom position (bytes ++ rest) = do
      let more ← decodeFrom (position + bytes.length) rest
      return Char.ofNat n :: more := by
  have hnot : ∀ {a low bound : UInt8}, low ≤ a → bound ≤ low → ¬a < bound := fun hlow hbound =>
    UInt8.not_lt.mpr (UInt8.le_trans hbound hlow)
  rw [decodeFrom.eq_def]
  cases h with
  | one ha hn =>
    simp only [List.cons_append, if_pos ha, hn]
    rfl
  | two hlow hhigh hb hn =>
    have h₁ := hnot hlow (by decide : (0x80 : UInt8) ≤ 0xC2)
    have h₂ := hnot hlow (by decide : (0xC2 : UInt8) ≤ 0xC2)
    simp only [List.cons_append, if_neg h₁, if_neg h₂, if_pos hhigh, if_pos hb, hn]
    rfl
  | three hlow hhigh hb hc hn =>
    have h₁ := hnot hlow (by decide : (0x80 : UInt8) ≤ 0xE0)
    have h₂ := hnot hlow (by decide : (0xC2 : UInt8) ≤ 0xE0)
    have h₃ := hnot hlow (by decide : (0xE0 : UInt8) ≤ 0xE0)
    simp only [List.cons_append, if_neg h₁, if_neg h₂, if_neg h₃, if_pos hhigh, hb, hc, hn, Bool.not_true,
      Bool.false_eq_true, if_false]
    rfl
  | four hlow hhigh hb hc hd hn =>
    have h₁ := hnot hlow (by decide : (0x80 : UInt8) ≤ 0xF0)
    have h₂ := hnot hlow (by decide : (0xC2 : UInt8) ≤ 0xF0)
    have h₃ := hnot hlow (by decide : (0xE0 : UInt8) ≤ 0xF0)
    have h₄ := hnot hlow (by decide : (0xF0 : UInt8) ≤ 0xF0)
    simp only [List.cons_append, if_neg h₁, if_neg h₂, if_neg h₃, if_neg h₄, if_pos hhigh, hb, hc, hd, hn,
      Bool.not_true, Bool.false_eq_true, if_false]
    rfl

theorem decodeFrom_encode (position : Nat) (text : List Char) :
    decodeFrom position (encode text) = .ok text := by
  induction text generalizing position with
  | nil => rfl
  | cons c rest ih =>
    have hcons : encode (c :: rest) = String.utf8EncodeChar c ++ encode rest := List.flatMap_cons
    rw [hcons, decodeFrom_append (charBytes_encode c), ih, Char.ofNat_toNat]
    rfl

/-- If what stands behind a character is the encoding of what it is decoded to, the whole is. -/
theorem append_eq_encode {n position : Nat} {bytes rest : List UInt8} (hbytes : CharBytes n bytes)
    (hrest : ∀ {more}, decodeFrom position rest = .ok more → rest = encode more) {text : List Char}
    (h : (do let more ← decodeFrom position rest; return Char.ofNat n :: more) = .ok text) :
    bytes ++ rest = encode text := by
  obtain ⟨more, hmore, h⟩ := exists_of_bind_eq_ok h
  cases h
  rw [hbytes.eq_encode, hrest hmore]
  exact List.flatMap_cons.symm

theorem eq_encode_of_decodeFrom {position : Nat} {bytes : List UInt8} {text : List Char}
    (h : decodeFrom position bytes = .ok text) : bytes = encode text := by
  -- Of the ways through the decoder, five succeed: the end of the data and one for each length of a character.
  fun_induction decodeFrom position bytes generalizing text with
  | case1 =>
    cases h
    rfl
  | case2 position a rest ha ih => exact append_eq_encode (.one ha rfl) ih h
  | case5 position a _ hlow hhigh b rest hb ih =>
    exact append_eq_encode (.two (UInt8.not_lt.mp hlow) hhigh hb rfl) ih h
  | case12 position a _ _ hlow hhigh b c rest hb hc ih =>
    simp only [Bool.not_eq_true', Bool.not_eq_false] at hb hc
    exact append_eq_encode (.three (UInt8.not_lt.mp hlow) hhigh hb hc rfl) ih h
  | case22 position a _ _ _ hlow hhigh b c d rest hb hc hd ih =>
    simp only [Bool.not_eq_true', Bool.not_eq_false] at hb hc hd
    exact append_eq_encode (.four (UInt8.not_lt.mp hlow) hhigh hb hc hd rfl) ih h
  | _ => cases h

/-- Bytes are decoded to a text exactly if they are its encoding. -/
theorem decode_eq_ok_iff {bytes : List UInt8} {text : List Char} :
    decode bytes = .ok text ↔ bytes = encode text := by
  constructor
  · exact eq_encode_of_decodeFrom
  · rintro rfl
    exact decodeFrom_encode 0 text

theorem encode_injective : Function.Injective encode := by
  intro text other h
  have hdecode := decode_eq_ok_iff.mpr (rfl : encode text = encode text)
  rw [decode_eq_ok_iff.mpr h] at hdecode
  exact (Except.ok.inj hdecode).symm

end FirewallPolicy.Text.Utf8
