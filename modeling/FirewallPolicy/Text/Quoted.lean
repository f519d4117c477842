import FirewallPolicy.Text.Printable

/-!
A text as messages quote it.

Single quotes stand around it, or double quotes if it has a single quote and no double one. The
quote used, the backslash, tab, line feed and carriage return are written with a backslash; any
other character that is not printable is written by its number, in the shortest of three widths.
-/

namespace FirewallPolicy.Text

/-- The lower-case hexadecimal digits of a number, at least as many as asked for. -/
def hexDigits (width n : Nat) : List Char :=
  let digits := Nat.toDigits 16 n
  List.replicate (width - digits.length) '0' ++ digits

/-- The number of a character after a backslash and a letter that tells the width. -/
def numberEscape (c : Char) : List Char :=
  let n := c.toNat
  if n < 0x100 then '\\' :: 'x' :: hexDigits 2 n
  else if n < 0x10000 then '\\' :: 'u' :: hexDigits 4 n
  else '\\' :: 'U' :: hexDigits 8 n

def quotedChar (quote c : Char) : List Char :=
  if c = quote ∨ c = '\\' then ['\\', c]
  else if c = '\t' then ['\\', 't']
  else if c = '\n' then ['\\', 'n']
  else if c = '\r' then ['\\', 'r']
  else if isPrintable c then [c]
  else numberEscape c

def singleQuote : Char := '\x27'

def doubleQuote : Char := '\x22'

def quoted (s : List Char) : List Char :=
  let quote :=
    if s.contains singleQuote && !s.contains doubleQuote then doubleQuote else singleQuote
  quote :: s.flatMap (quotedChar quote) ++ [quote]

end FirewallPolicy.Text
