import FirewallPolicy.Text.Blank

/-!
Options of a command line.

A command declares the spellings of its options: one that takes a value, or a flag that sets one. A
value follows after an equals sign or as the next word, whatever that word looks like. Short flags
may be put together after one dash. Two dashes alone end the options. What is given later
overrides what is given earlier (`get?_add_self`). An option that is not given takes its value
from an environment variable, if it has one that is not empty.

The options of a command are a type `O` of its own.
-/

namespace FirewallPolicy.Command

variable {O : Type}

inductive Effect where
  | takesValue
  | sets (value : Bool)
  deriving DecidableEq, Repr

structure Spelling (O : Type) where
  word : String
  option : O
  effect : Effect
  deriving DecidableEq, Repr

inductive Given where
  | word (text : String)
  | flag (value : Bool)
  deriving DecidableEq, Repr

/-! ## Taking the words apart -/

structure Parsed (O : Type) where
  given : List (O × Given) := []
  /-- Words that belong to no option. -/
  extra : List String := []
  help : Bool := false
  deriving DecidableEq, Repr

namespace Parsed

def add (p : Parsed O) (option : O) (value : Given) : Parsed O :=
  { p with given := p.given ++ [(option, value)] }

def get? [DecidableEq O] (p : Parsed O) (option : O) : Option Given := p.given.reverse.lookup option

theorem get?_add_self [DecidableEq O] (p : Parsed O) (option : O) (value : Given) :
    (p.add option value).get? option = some value := by
  simp [get?, add]

end Parsed

def cutValue (word : String) : String × Option String :=
  let chars := word.toList
  match chars.dropWhile (· != '=') with
  | [] => (word, none)
  | _ :: value => (String.ofList (chars.takeWhile (· != '=')), some (String.ofList value))

def find? (spellings : List (Spelling O)) (word : String) : Option (Spelling O) :=
  spellings.find? (·.word == word)

/-- Short flags put together after one dash. -/
def shortFlags (spellings : List (Spelling O)) : List Char → Parsed O → Option (Parsed O)
  | [], p => some p
  | c :: rest, p =>
    match find? spellings (String.ofList ['-', c]) with
    | some ⟨_, option, .sets value⟩ => shortFlags spellings rest (p.add option (.flag value))
    | _ => none

def helpWord : String := "--help"

/-- Takes the words of a command line apart; none if they cannot be. -/
def parse (spellings : List (Spelling O)) : List String → Parsed O → Option (Parsed O)
  | [], p => some p
  | word :: rest, p =>
    if word = "--" then some { p with extra := p.extra ++ rest }
    else if word = helpWord then parse spellings rest { p with help := true }
    else if !word.startsWith "-" || word = "-" then
      parse spellings rest { p with extra := p.extra ++ [word] }
    else
      let (name, value) := cutValue word
      match find? spellings name, value with
      | some ⟨_, option, .takesValue⟩, some text => parse spellings rest (p.add option (.word text))
      | some ⟨_, option, .takesValue⟩, none =>
        match rest with
        | text :: rest => parse spellings rest (p.add option (.word text))
        | [] => none
      | some ⟨_, option, .sets flag⟩, none => parse spellings rest (p.add option (.flag flag))
      | some ⟨_, _, .sets _⟩, some _ => none
      | none, _ =>
        if word.startsWith "--" then none
        else match shortFlags spellings (word.toList.drop 1) p with
          | some p => parse spellings rest p
          | none => none

/-! ## Values -/

/-- A word for yes or no, in any case and amid blanks. Blanks alone mean no. -/
def readFlag (text : String) : Option Bool :=
  let word := String.ofList ((Text.trim text.toList).map Char.toLower)
  if ["1", "true", "t", "yes", "y", "on"].contains word then some true
  else if ["", "0", "false", "f", "no", "n", "off"].contains word then some false
  else none

/-- The words and the environment that a command is called with, and the environment variable of
each option that has one. -/
structure Call (O : Type) where
  parsed : Parsed O
  setting : O → Option String
  environment : String → Option String

namespace Call

def environmentWord (c : Call O) (option : O) : Option String :=
  ((c.setting option).bind c.environment).filter (!·.isEmpty)

variable [DecidableEq O]

def word? (c : Call O) (option : O) : Option String :=
  match c.parsed.get? option with
  | some (.word text) => some text
  | _ => c.environmentWord option

/-- A flag, with what it is when nobody sets it; none if the environment's word is no flag. -/
def flag (c : Call O) (option : O) (unset : Bool) : Option Bool :=
  match c.parsed.get? option with
  | some (.flag value) => some value
  | _ =>
    match c.environmentWord option with
    | some word => readFlag word
    | none => some unset

end Call

inductive Usage where
  | help
  | misuse
  deriving DecidableEq, Repr

def Usage.exitCode : Usage → Nat
  | help => 0
  | misuse => 2

/-- Takes a call apart. A request for help goes before words that belong to no option, but not
before an option that is not known or has no value. -/
def call (spellings : List (Spelling O)) (setting : O → Option String)
    (environment : String → Option String) (words : List String) : Except Usage (Call O) :=
  match parse spellings words {} with
  | none => .error .misuse
  | some parsed =>
    if parsed.help then .error .help
    else if !parsed.extra.isEmpty then .error .misuse
    else .ok ⟨parsed, setting, environment⟩

/-- What a command is asked to do, as its reader of options takes it from a call. -/
def asked {A : Type} (spellings : List (Spelling O)) (setting : O → Option String)
    (read : Call O → Option A) (environment : String → Option String) (words : List String) :
    Except Usage A :=
  match call spellings setting environment words with
  | .error usage => .error usage
  | .ok c =>
    match read c with
    | none => .error .misuse
    | some options => .ok options

theorem exists_call_of_asked {A : Type} {spellings : List (Spelling O)} {setting : O → Option String}
    {read : Call O → Option A} {environment : String → Option String} {words : List String} {options : A}
    (h : asked spellings setting read environment words = .ok options) :
    ∃ c, read c = some options := by
  unfold asked at h
  split at h
  · cases h
  · rename_i c _
    cases hread : read c with
    | none => simp [hread] at h
    | some o => exact ⟨c, by simpa [hread] using h⟩

end FirewallPolicy.Command
