import FirewallPolicy.Text.Blank

/-!
Comparison without regard to case.

A name is looked up among names of basic letters by its capital form. Beside the basic letters
only ten characters have a capital form made of basic letters; every other character keeps one
outside them, so it can be left as it is.
-/

namespace FirewallPolicy.Text

/-- The capital form of a character, as far as basic letters are concerned. -/
def capital (c : Char) : List Char :=
  match c.toNat with
  | 0xDF => ['S', 'S']
  | 0x131 => ['I']
  | 0x17F => ['S']
  | 0xFB00 => ['F', 'F']
  | 0xFB01 => ['F', 'I']
  | 0xFB02 => ['F', 'L']
  | 0xFB03 => ['F', 'F', 'I']
  | 0xFB04 => ['F', 'F', 'L']
  | 0xFB05 => ['S', 'T']
  | 0xFB06 => ['S', 'T']
  | _ => [c.toUpper]

def capitals (s : List Char) : List Char := s.flatMap capital

/-- Whether the text is the word "any", in any case and amid blanks. -/
def isAny (s : List Char) : Bool := (trim s).map Char.toLower == "any".toList

end FirewallPolicy.Text
