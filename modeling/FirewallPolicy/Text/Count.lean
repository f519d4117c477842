import FirewallPolicy.Text.Numeral

/-!
Counts in a text.

A count is a whole number of at least one (`Count.pos_of_read`), written in the basic digits. Blanks
may stand around it and a plus sign in front of it. Zeros in front do not count, nor do underscores
after the first of them; between the digits that count, underscores stand one at a time. A
fraction may follow if it has no digit but zero. At most `Numeral.maxDigits` digits are read.
-/

namespace FirewallPolicy.Text.Count

def dropPlus : List Char → List Char
  | '+' :: rest => rest
  | s => s

/-- The text without zeros in front and underscores after the first of them. -/
def dropZeros : List Char → List Char
  | '0' :: rest => rest.dropWhile fun c => c == '0' || c == '_'
  | s => s

/-- Reads digits, the first of them not zero, with single underscores between them. -/
def readWhole : List Char → Option Nat
  | [] => none
  | first :: rest =>
    let digits := rest.filter (· != '_')
    if first.isDigit && first != '0' && digits.all Char.isDigit && Numeral.marksBetween rest &&
        digits.length < Numeral.maxDigits then
      some (Numeral.ofBasicDigits (first :: digits))
    else none

def read (s : List Char) : Option Nat :=
  let unsigned := dropZeros (dropPlus (trimBy isNumeralBlank s))
  let fraction := (unsigned.dropWhile (· != '.')).drop 1
  if fraction.all (· == '0') then readWhole (unsigned.takeWhile (· != '.')) else none

private theorem pos_of_readWhole {s : List Char} {n : Nat} (h : readWhole s = some n) : 0 < n := by
  cases s with
  | nil => simp [readWhole] at h
  | cons first rest =>
    simp only [readWhole] at h
    split at h
    · rename_i hf
      simp only [Bool.and_eq_true, bne_iff_ne, ne_eq] at hf
      obtain ⟨⟨⟨⟨hd, hz⟩, -⟩, -⟩, -⟩ := hf
      rw [← Option.some.inj h]
      exact Numeral.ofBasicDigits_pos hd hz _
    · cases h

theorem pos_of_read {s : List Char} {n : Nat} (h : read s = some n) : 0 < n := by
  simp only [read] at h
  split at h
  · exact pos_of_readWhole h
  · cases h

end FirewallPolicy.Text.Count
