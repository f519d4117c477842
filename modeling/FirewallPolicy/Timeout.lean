import FirewallPolicy.Text.Numeral

/-!
Limits on the time of a search.

A limit is a decimal number of seconds, or infinite; the latter never passes. `read` takes a numeral
in the basic digits with an optional sign, fraction and power of ten, or a word for infinity. Either
blanks stand around the whole, or underscores stand one at a time anywhere inside it.
-/

namespace FirewallPolicy

open Text

inductive Timeout where
  /-- The coefficient times a power of ten. -/
  | seconds (negative : Bool) (coefficient : Nat) (exponent : Int)
  | infinite (negative : Bool)
  deriving DecidableEq, Repr

namespace Timeout

def ofSeconds (n : Int) : Timeout := seconds (n < 0) n.natAbs 0

def digitCount (n : Nat) : Nat := (Nat.toDigits 10 n).length

/-- Whether the number is too small to differ from zero: at most half of the least positive number
of double precision, 2^-1075. -/
def vanishes (coefficient : Nat) (exponent : Int) : Bool :=
  let size := exponent + digitCount coefficient
  if coefficient = 0 then true
  else if size < -400 then true
  else if size > -300 then false
  else coefficient * Nat.pow 2 1075 ≤ Nat.pow 10 (-exponent).toNat

/-- Whether the limit is below zero. A number too small to differ from zero is not. -/
def isNegative : Timeout → Bool
  | seconds negative coefficient exponent => negative && !vanishes coefficient exponent
  | infinite negative => negative

/-- Whether the limit has passed after so many nanoseconds. A limit far below a nanosecond has
passed at once, and one beyond 10^40 nanoseconds never passes. -/
def passed (elapsed : Nat) : Timeout → Bool
  | seconds negative coefficient exponent =>
    let scale := exponent + 9
    let size := scale + digitCount coefficient
    if negative || coefficient = 0 then true
    else if size > 40 then false
    else if size < 0 then true
    else if 0 ≤ scale then coefficient * Nat.pow 10 scale.toNat ≤ elapsed
    else coefficient ≤ elapsed * Nat.pow 10 (-scale).toNat
  | infinite negative => negative

/-! ## Reading -/

def readExponent (s : List Char) : Option Int :=
  let (negative, digits) := Numeral.sign s
  if digits.isEmpty || !digits.all Char.isDigit then none
  else
    let n : Int := Numeral.ofBasicDigits digits
    some (if negative then -n else n)

/-- Digits, an optional fraction, an optional power of ten. -/
def readDecimal (negative : Bool) (s : List Char) : Option Timeout := do
  let whole := s.takeWhile Char.isDigit
  let afterWhole := s.dropWhile Char.isDigit
  let (fraction, rest) := match afterWhole with
    | '.' :: more => (more.takeWhile Char.isDigit, more.dropWhile Char.isDigit)
    | more => ([], more)
  let exponent ← match rest with
    | [] => some 0
    | 'e' :: more => readExponent more
    | 'E' :: more => readExponent more
    | _ => none
  if whole.isEmpty && fraction.isEmpty then none
  else
    let coefficient := Numeral.ofBasicDigits (whole ++ fraction)
    some (.seconds negative coefficient (exponent - fraction.length))

def readPlain (s : List Char) : Option Timeout :=
  let (negative, unsigned) := Numeral.sign s
  let word := String.ofList (unsigned.map Char.toLower)
  if word = "inf" ∨ word = "infinity" then some (.infinite negative)
  else readDecimal negative unsigned

/-- The text without its underscores, if they stand one at a time and not at an end. -/
def dropMarks (s : List Char) : Option (List Char) :=
  if s.head? == some '_' || !Numeral.marksBetween s then none else some (s.filter (· != '_'))

/-- Reads a limit in seconds. -/
def read (s : List Char) : Option Timeout :=
  readPlain (trimBy isNumeralBlank s) <|> (dropMarks s).bind readPlain

end Timeout

end FirewallPolicy
