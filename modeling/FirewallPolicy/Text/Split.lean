/-!
Cutting a text at a separator.

The pieces are what stands between the occurrences of the separator, taken from the left and not
overlapping. There is always at least one piece. The separator is not empty where it is used.
-/

namespace FirewallPolicy.Text

def consHead (c : Char) : List (List Char) → List (List Char)
  | [] => [[c]]
  | piece :: rest => (c :: piece) :: rest

/-- Cuts after skipping the given number of characters, the rest of an occurrence. -/
def splitFrom (separator : List Char) : Nat → List Char → List (List Char)
  | _, [] => [[]]
  | skip + 1, _ :: rest => splitFrom separator skip rest
  | 0, c :: rest =>
    if separator.isPrefixOf (c :: rest) then [] :: splitFrom separator (separator.length - 1) rest
    else consHead c (splitFrom separator 0 rest)

def split (separator : List Char) (s : List Char) : List (List Char) := splitFrom separator 0 s

theorem split_nil (separator : List Char) : split separator [] = [[]] := by
  simp [split, splitFrom]

/-- What stands before and after the first occurrence of a character, if it occurs. -/
def splitOnce (mark : Char) (s : List Char) : Option (List Char × List Char) :=
  match s.dropWhile (· != mark) with
  | [] => none
  | _ :: after => some (s.takeWhile (· != mark), after)

end FirewallPolicy.Text
