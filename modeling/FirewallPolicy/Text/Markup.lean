/-!
Text inside styled output.

Styled output gives a meaning to tags: an opening bracket, a lower-case letter or one of `#`, `/`
and `@`, and what follows up to the next closing bracket, with no opening bracket in between.
`escape` puts a backslash before every tag and doubles the backslashes that stand before it, so
that the text shows as it is. A single backslash at the end is doubled too: it must not escape
what the output puts after the text.
-/

namespace FirewallPolicy.Text.Markup

def startsTag (c : Char) : Bool :=
  ('a' ≤ c && c ≤ 'z') || c == '#' || c == '/' || c == '@'

/-- Whether what follows an opening bracket makes it the start of a tag. -/
def isTag : List Char → Bool
  | [] => false
  | c :: rest => startsTag c && (rest.find? fun d => d == '[' || d == ']') == some ']'

/-- Escapes tags, with a count of the backslashes that stand before the text and are not written
yet. -/
def escapeTags : Nat → List Char → List Char
  | pending, [] => List.replicate pending '\\'
  | pending, c :: rest =>
    if c = '\\' then escapeTags (pending + 1) rest
    else
      let written := if c = '[' && isTag rest then 2 * pending + 1 else pending
      List.replicate written '\\' ++ c :: escapeTags 0 rest

def endsInBackslash (s : List Char) : Bool :=
  match s.reverse with
  | '\\' :: '\\' :: _ => false
  | '\\' :: _ => true
  | _ => false

/-- The text as styled output shows it unchanged. -/
def escape (s : List Char) : List Char :=
  let escaped := escapeTags 0 s
  if endsInBackslash escaped then escaped ++ ['\\'] else escaped

end FirewallPolicy.Text.Markup
