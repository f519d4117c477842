import FirewallPolicy.Text.Blank
import FirewallPolicy.Text.DecimalDigit
import FirewallPolicy.Text.Quoted

/-!
Whole numbers in a text.

A numeral is an optional sign and decimal digits of any script, with single underscores allowed
between digits and blanks around the whole. At most `Numeral.maxDigits` digits are read; a longer
run of digits is refused before what follows it is looked at. No more digits than that are written
either (`Numeral.Writable`).
-/

namespace FirewallPolicy.Text

def isNumeralBlank (c : Char) : Bool := isBlank c && !isInformationSeparator c

namespace Numeral

inductive Error where
  | malformed (text : List Char)
  | tooLong (digits : Nat)
  deriving DecidableEq, Repr

/-- The longest run of digits that is read or written. -/
def maxDigits : Nat := 4300

/-- The number has no more digits than are written. -/
def Writable (n : Int) : Prop := n.natAbs < Nat.pow 10 maxDigits

instance (n : Int) : Decidable (Writable n) := inferInstanceAs (Decidable (_ < _))

/-- A quoted text in a message is cut to this many characters. -/
def maxQuoted : Nat := 200

def Error.message : Error → String
  | malformed text =>
    "invalid literal for int() with base 10: " ++ String.ofList ((quoted text).take maxQuoted)
  | tooLong digits =>
    s!"Exceeds the limit ({maxDigits} digits) for integer string conversion: " ++
      s!"value has {digits} digits; use sys.set_int_max_str_digits() to increase the limit"

def isDigitOrMark (c : Char) : Bool := c == '_' || (digitValue? c).isSome

/-- Underscores stand one at a time and not at the end. -/
def marksBetween : List Char → Bool
  | [] => true
  | ['_'] => false
  | '_' :: '_' :: _ => false
  | _ :: rest => marksBetween rest

def digitsOf (run : List Char) : List Nat := run.filterMap digitValue?

def ofDigits (digits : List Nat) : Nat := digits.foldl (fun n d => 10 * n + d) 0

def ofBasicDigits (s : List Char) : Nat := ofDigits (s.map fun c => c.toNat - '0'.toNat)

private theorem le_foldl (digits : List Nat) (n : Nat) :
    n ≤ digits.foldl (fun n d => 10 * n + d) n := by
  induction digits generalizing n with
  | nil => exact Nat.le_refl n
  | cons d ds ih => exact Nat.le_trans (by omega) (ih (10 * n + d))

theorem ofBasicDigits_pos {c : Char} (hd : c.isDigit = true) (hz : c ≠ '0') (s : List Char) :
    0 < ofBasicDigits (c :: s) := by
  have hc : 48 < c.toNat := by
    have hle : 48 ≤ c.toNat := by
      simp only [Char.isDigit, Bool.and_eq_true, decide_eq_true_eq] at hd
      exact hd.1
    have hne : c.toNat ≠ 48 := fun h => hz (Char.ext (UInt32.toNat_inj.1 h))
    omega
  have hfirst : 0 < 10 * 0 + (c.toNat - 48) := by omega
  exact Nat.lt_of_lt_of_le hfirst (le_foldl _ _)

/-- The sign in front of a numeral: whether it is a minus, and what follows. -/
def sign : List Char → Bool × List Char
  | '+' :: rest => (false, rest)
  | '-' :: rest => (true, rest)
  | s => (false, s)

def read (s : List Char) : Except Error Int :=
  let (negative, unsigned) := sign (s.dropWhile isNumeralBlank)
  let run := unsigned.takeWhile isDigitOrMark
  let rest := unsigned.dropWhile isDigitOrMark
  let digits := digitsOf run
  if run.head? == some '_' || !marksBetween run then .error (.malformed s)
  else if digits.length > maxDigits then .error (.tooLong digits.length)
  else if digits.isEmpty || !rest.all isNumeralBlank then .error (.malformed s)
  else .ok (if negative then -(ofDigits digits : Int) else ofDigits digits)

end Numeral

end FirewallPolicy.Text
