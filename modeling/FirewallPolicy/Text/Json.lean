import FirewallPolicy.Text.Quoted

/-!
Reports as JSON text.

A value inside a list or an object stands on a line of its own, two spaces further in; an empty list
or object is written without a break. Only printable basic characters stand for themselves: all
others are written by number, those past U+FFFF as a pair of surrogates.
-/

namespace FirewallPolicy.Text

inductive Json where
  | null
  | bool (value : Bool)
  | number (value : Int)
  | text (value : String)
  | list (items : List Json)
  | object (members : List (String × Json))

namespace Json

/-- A 16-bit unit by its number. -/
def unitEscape (n : Nat) : List Char := '\\' :: 'u' :: hexDigits 4 n

def escapeChar (c : Char) : List Char :=
  let n := c.toNat
  if c = doubleQuote ∨ c = '\\' then ['\\', c]
  else if n = 0x0A then ['\\', 'n']
  else if n = 0x0D then ['\\', 'r']
  else if n = 0x09 then ['\\', 't']
  else if n = 0x0C then ['\\', 'f']
  else if n = 0x08 then ['\\', 'b']
  else if 0x20 ≤ n ∧ n < 0x7F then [c]
  else if n < 0x10000 then unitEscape n
  else unitEscape (0xD800 + (n - 0x10000) / 0x400) ++ unitEscape (0xDC00 + (n - 0x10000) % 0x400)

def quotedText (s : String) : List Char :=
  doubleQuote :: s.toList.flatMap escapeChar ++ [doubleQuote]

def newLine (depth : Nat) : List Char := '\n' :: List.replicate (2 * depth) ' '

mutual

def renderAt (depth : Nat) : Json → List Char
  | null => "null".toList
  | bool b => (if b then "true" else "false").toList
  | number n => (toString n).toList
  | text s => quotedText s
  | list [] => "[]".toList
  | list (item :: rest) =>
    '[' :: newLine (depth + 1) ++ renderAt (depth + 1) item ++ renderItems (depth + 1) rest ++
      newLine depth ++ [']']
  | object [] => ['\x7b', '\x7d']
  | object ((key, value) :: rest) =>
    '\x7b' :: newLine (depth + 1) ++ quotedText key ++ ": ".toList ++ renderAt (depth + 1) value ++
      renderMembers (depth + 1) rest ++ newLine depth ++ ['\x7d']

def renderItems (depth : Nat) : List Json → List Char
  | [] => []
  | item :: rest => ',' :: newLine depth ++ renderAt depth item ++ renderItems depth rest

def renderMembers (depth : Nat) : List (String × Json) → List Char
  | [] => []
  | (key, value) :: rest =>
    ',' :: newLine depth ++ quotedText key ++ ": ".toList ++ renderAt depth value ++
      renderMembers depth rest

end

def render (j : Json) : String := String.ofList (renderAt 0 j)

end Json

end FirewallPolicy.Text
