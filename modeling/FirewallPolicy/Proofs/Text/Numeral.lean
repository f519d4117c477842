import FirewallPolicy.Proofs.Text.Decimal

/-!
How numerals are written.

A numeral is a sign, which may be missing, and a run of digits with marks between them; blanks may stand
around it (`Writes`). Neither a sign nor a digit of any script is a blank, so trimming takes off what
stands around the numeral and leaves the numeral (`Writes.exists_trim`). It also takes off blanks that no
numeral may have around it, so a trimmed text can be a numeral where the text is none.

Proved: `read_eq_ok_iff`, exactly what is so written is read, and as the number that it writes; hence
`read_trim`, a numeral may be trimmed.
-/

namespace FirewallPolicy.Text

/-- A digit of any script is no blank. -/
theorem isBlank_of_digitValue? {c : Char} {d : Nat} (h : digitValue? c = some d) : isBlank c = false := by
  have hscripts : ∀ z ∈ zeros, ∀ k : Fin 10, isBlank (Char.ofNat (z + k)) = false := by decide +kernel
  unfold digitValue? at h
  obtain ⟨z, hz, -⟩ := Option.map_eq_some_iff.mp h
  have hrange := List.find?_some hz
  simp only [Bool.and_eq_true, decide_eq_true_eq] at hrange
  have hdigit := hscripts z (List.mem_of_find?_eq_some hz) ⟨c.toNat - z, by omega⟩
  have hc : z + (c.toNat - z) = c.toNat := by omega
  simpa only [hc, Char.ofNat_toNat] using hdigit

namespace Numeral

/-! ## Parts of a numeral -/

inductive IsSign : List Char → Bool → Prop
  | none : IsSign [] false
  | plus : IsSign ['+'] false
  | minus : IsSign ['-'] true

/-- Digits, not too many of them, with single marks between them. -/
structure IsRun (run : List Char) : Prop where
  digitOrMark : ∀ c ∈ run, isDigitOrMark c = true
  head_ne : run.head? ≠ some '_'
  marksBetween : marksBetween run = true
  digits_ne : digitsOf run ≠ []
  length_le : (digitsOf run).length ≤ maxDigits

def valueOf (negative : Bool) (run : List Char) : Int :=
  if negative then -(ofDigits (digitsOf run) : Int) else ofDigits (digitsOf run)

/-- The text writes the number: a sign and a run, amid blanks. -/
inductive Writes : List Char → Int → Prop
  | intro {front lead run back : List Char} {negative : Bool} : (∀ c ∈ front, isNumeralBlank c = true) →
      IsSign lead negative → IsRun run → (∀ c ∈ back, isNumeralBlank c = true) →
      Writes (front ++ (lead ++ run) ++ back) (valueOf negative run)

theorem isBlank_of_isDigitOrMark {c : Char} (h : isDigitOrMark c = true) : isBlank c = false := by
  unfold isDigitOrMark at h
  rcases Bool.or_eq_true_iff.mp h with hmark | hdigit
  · obtain rfl := beq_iff_eq.mp hmark
    decide
  · obtain ⟨d, hd⟩ := Option.isSome_iff_exists.mp hdigit
    exact isBlank_of_digitValue? hd

theorem IsRun.ne_nil {run : List Char} (h : IsRun run) : run ≠ [] := by
  rintro rfl
  exact h.digits_ne rfl

theorem IsSign.isBlank {lead : List Char} {negative : Bool} (h : IsSign lead negative) {c : Char}
    (hc : c ∈ lead) : isBlank c = false := by
  cases h with
  | none => cases hc
  | plus =>
    obtain rfl := List.mem_singleton.mp hc
    decide
  | minus =>
    obtain rfl := List.mem_singleton.mp hc
    decide

theorem isBlank_of_mem {lead run : List Char} {negative : Bool} (hlead : IsSign lead negative) (hrun : IsRun run)
    {c : Char} (hc : c ∈ lead ++ run) : isBlank c = false := by
  rcases List.mem_append.mp hc with hc | hc
  · exact hlead.isBlank hc
  · exact isBlank_of_isDigitOrMark (hrun.digitOrMark c hc)

/-! ## Reading -/

/-- What stands in front of the digits is a sign. -/
theorem isSign_sign (s : List Char) : ∃ lead, IsSign lead (sign s).1 ∧ s = lead ++ (sign s).2 := by
  unfold sign
  split
  · exact ⟨['+'], .plus, rfl⟩
  · exact ⟨['-'], .minus, rfl⟩
  · exact ⟨[], .none, rfl⟩

theorem sign_append {lead rest : List Char} {negative : Bool} (h : IsSign lead negative)
    (hrest : ∀ c ∈ rest.head?, c ≠ '+' ∧ c ≠ '-') : sign (lead ++ rest) = (negative, rest) := by
  cases h with
  | none =>
    rw [List.nil_append]
    unfold sign
    split
    · exact absurd rfl (hrest '+' rfl).1
    · exact absurd rfl (hrest '-' rfl).2
    · rfl
  | plus => rfl
  | minus => rfl

theorem writes_of_read {s : List Char} {n : Int} (h : read s = .ok n) : Writes s n := by
  obtain ⟨lead, hlead, hbody⟩ := isSign_sign (s.dropWhile isNumeralBlank)
  unfold read at h
  simp only at h
  generalize hsign : sign (s.dropWhile isNumeralBlank) = signed at h hlead hbody
  obtain ⟨negative, unsigned⟩ := signed
  simp only at h hlead hbody
  split at h
  · cases h
  rename_i hmarks
  split at h
  · cases h
  rename_i hlength
  split at h
  · cases h
  rename_i hends
  simp only [Bool.or_eq_true, not_or, Bool.not_eq_true', Bool.not_eq_false, beq_iff_eq] at hmarks hends
  have hrun : IsRun (unsigned.takeWhile isDigitOrMark) := {
    digitOrMark := fun c hc => List.mem_takeWhile_imp hc
    head_ne := hmarks.1
    marksBetween := hmarks.2
    digits_ne := by simpa using hends.1
    length_le := by omega }
  have htext : s = s.takeWhile isNumeralBlank ++ (lead ++ unsigned.takeWhile isDigitOrMark) ++
      unsigned.dropWhile isDigitOrMark := by
    rw [List.append_assoc, List.append_assoc, List.takeWhile_append_dropWhile, ← hbody,
      List.takeWhile_append_dropWhile]
  rw [htext]
  cases h
  exact .intro (fun c hc => List.mem_takeWhile_imp hc) hlead hrun (List.all_eq_true.mp hends.2)

section Parts

variable {front lead run back : List Char} {negative : Bool}

/-- The blanks in front end where the numeral starts. -/
theorem dropWhile_blanks (hfront : ∀ c ∈ front, isNumeralBlank c = true) (hlead : IsSign lead negative)
    (hrun : IsRun run) :
    (front ++ (lead ++ run) ++ back).dropWhile isNumeralBlank = lead ++ (run ++ back) := by
  obtain ⟨c, core, hcore⟩ := List.exists_cons_of_ne_nil (List.append_ne_nil_of_right_ne_nil lead hrun.ne_nil)
  have hc : isBlank c = false := isBlank_of_mem hlead hrun (hcore ▸ List.mem_cons_self)
  rw [List.append_assoc, List.dropWhile_append_of_pos hfront, ← List.append_assoc, hcore]
  exact dropWhile_eq_self_of_head fun d hd => by
    obtain rfl := Option.some.inj hd
    simp [isNumeralBlank, hc]

/-- A run has no sign in front. -/
theorem IsRun.no_sign (hrun : IsRun run) : ∀ c ∈ (run ++ back).head?, c ≠ '+' ∧ c ≠ '-' := by
  obtain ⟨c, digits, rfl⟩ := List.exists_cons_of_ne_nil hrun.ne_nil
  have hc := hrun.digitOrMark c List.mem_cons_self
  intro d hd
  obtain rfl := Option.some.inj hd
  constructor
  · rintro rfl
    exact absurd hc (by decide)
  · rintro rfl
    exact absurd hc (by decide)

theorem IsRun.dropWhile_append (hrun : IsRun run) (hback : ∀ c ∈ back, isNumeralBlank c = true) :
    (run ++ back).dropWhile isDigitOrMark = back := by
  rw [List.dropWhile_append_of_pos hrun.digitOrMark]
  apply dropWhile_eq_self_of_head
  intro c hc
  have hblank := (Bool.and_eq_true_iff.mp (hback c (List.mem_of_mem_head? hc))).1
  cases hdigit : isDigitOrMark c with
  | false => rfl
  | true =>
    rw [isBlank_of_isDigitOrMark hdigit] at hblank
    cases hblank

theorem IsRun.takeWhile_append (hrun : IsRun run) (hback : ∀ c ∈ back, isNumeralBlank c = true) :
    (run ++ back).takeWhile isDigitOrMark = run := by
  have hjoin := List.takeWhile_append_dropWhile (p := isDigitOrMark) (l := run ++ back)
  rw [hrun.dropWhile_append hback] at hjoin
  exact List.append_cancel_right hjoin

end Parts

theorem read_of_writes {s : List Char} {n : Int} (h : Writes s n) : read s = .ok n := by
  cases h with
  | @intro front lead run back negative hfront hlead hrun hback =>
    have hmarks : ¬(run.head? == some '_' || !marksBetween run) = true := by
      rw [hrun.marksBetween, beq_eq_false_iff_ne.mpr hrun.head_ne]
      decide
    have hlength : ¬(digitsOf run).length > maxDigits := Nat.not_lt.mpr hrun.length_le
    have hends : ¬((digitsOf run).isEmpty || !back.all isNumeralBlank) = true := by
      simpa [hrun.digits_ne] using hback
    simp only [read, dropWhile_blanks hfront hlead hrun, sign_append hlead hrun.no_sign,
      hrun.takeWhile_append hback, hrun.dropWhile_append hback, if_neg hmarks, if_neg hlength, if_neg hends]
    rfl

/-- Exactly the texts that write a number are read, and as that number. -/
theorem read_eq_ok_iff {s : List Char} {n : Int} : read s = .ok n ↔ Writes s n :=
  ⟨writes_of_read, read_of_writes⟩

/-! ## Trimming -/

/-- Of the text of a number, trimming leaves the sign and the run. -/
theorem Writes.exists_trim {s : List Char} {n : Int} (h : Writes s n) :
    ∃ lead run negative, IsSign lead negative ∧ IsRun run ∧ trim s = lead ++ run ∧
      n = valueOf negative run := by
  cases h with
  | @intro front lead run back negative hfront hlead hrun hback =>
    refine ⟨lead, run, negative, hlead, hrun, ?_, rfl⟩
    have hblank : ∀ {c : Char}, isNumeralBlank c = true → isBlank c = true :=
      fun h => (Bool.and_eq_true_iff.mp h).1
    exact trimBy_append (fun c hc => hblank (hfront c hc)) (fun c hc => isBlank_of_mem hlead hrun hc)
      fun c hc => hblank (hback c hc)

theorem read_trim {s : List Char} {n : Int} (h : read s = .ok n) : read (trim s) = .ok n := by
  obtain ⟨lead, run, negative, hlead, hrun, htrim, rfl⟩ := (read_eq_ok_iff.mp h).exists_trim
  have hwrites : Writes ([] ++ (lead ++ run) ++ []) (valueOf negative run) :=
    .intro (by simp) hlead hrun (by simp)
  rw [htrim]
  simpa using read_eq_ok_iff.mpr hwrites

/-- No list is a numeral. -/
theorem comma_not_mem_trim {s : List Char} {n : Int} (h : read s = .ok n) : ',' ∉ trim s := by
  obtain ⟨lead, run, negative, hlead, hrun, htrim, -⟩ := (read_eq_ok_iff.mp h).exists_trim
  rw [htrim]
  intro hcomma
  rcases List.mem_append.mp hcomma with hcomma | hcomma
  · cases hlead <;> simp at hcomma
  · exact absurd (hrun.digitOrMark ',' hcomma) (by decide)

/-- A dash in a numeral is its sign. -/
theorem eq_cons_of_dash_mem_trim {s : List Char} {n : Int} (h : read s = .ok n) (hdash : '-' ∈ trim s) :
    ∃ run, trim s = '-' :: run := by
  obtain ⟨lead, run, negative, hlead, hrun, htrim, -⟩ := (read_eq_ok_iff.mp h).exists_trim
  rw [htrim] at hdash ⊢
  rcases List.mem_append.mp hdash with hdash | hdash
  · cases hlead with
    | none => cases hdash
    | plus => simp at hdash
    | minus => exact ⟨run, rfl⟩
  · exact absurd (hrun.digitOrMark '-' hdash) (by decide)

end Numeral

end FirewallPolicy.Text
