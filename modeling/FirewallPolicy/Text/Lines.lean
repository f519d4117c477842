/-!
Lines of a text.

A line ends at a line feed, a carriage return, the two together, a vertical tab, a form feed, one
of the separators U+001C to U+001E, a next-line, or a line or paragraph separator. The end of the
last line may be missing, and no empty line follows it when it is there.
-/

namespace FirewallPolicy.Text

def endsLine (c : Char) : Bool :=
  let n := c.toNat
  (0x0A ≤ n && n ≤ 0x0D) || (0x1C ≤ n && n ≤ 0x1E) || n == 0x85 || n == 0x2028 || n == 0x2029

def lines : List Char → List (List Char)
  | [] => []
  | '\r' :: '\n' :: rest => [] :: lines rest
  | c :: rest =>
    if endsLine c then [] :: lines rest
    else match lines rest with
      | [] => [[c]]
      | line :: more => (c :: line) :: more

/-- Every carriage return, with the line feed that may follow it, becomes one line feed. -/
def unifyLineEnds : List Char → List Char
  | [] => []
  | '\r' :: '\n' :: rest => '\n' :: unifyLineEnds rest
  | c :: rest => (if c = '\r' then '\n' else c) :: unifyLineEnds rest

end FirewallPolicy.Text
