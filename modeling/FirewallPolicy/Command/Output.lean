import FirewallPolicy.Failure
import FirewallPolicy.Log
import FirewallPolicy.Rule.Basic
import FirewallPolicy.Text.Json
import FirewallPolicy.Text.Markup

/-!
What a command puts out, and how it ends.

Output is lines in a colour, empty lines and tables; `markup` is the styled text of a line, in which
the words of the user are escaped. A report in JSON goes out by itself. A command ends with an
exit code; a failure that it does not handle ends it with code 1 and no output.
-/

namespace FirewallPolicy.Command

inductive Colour where
  | red
  | green
  | yellow
  deriving DecidableEq, Repr

def Colour.word : Colour → String
  | red => "red"
  | green => "green"
  | yellow => "yellow"

structure Table where
  title : String
  columns : List String
  rows : List (List String)
  deriving DecidableEq, Repr

inductive Shown where
  | coloured (colour : Colour) (text : String)
  | plain (text : String)
  | blank
  | table (table : Table)
  deriving DecidableEq, Repr

def escaped (text : String) : String := String.ofList (Text.Markup.escape text.toList)

def colouredMarkup (colour : Colour) (text : String) : String :=
  s!"[{colour.word}]{escaped text}[/{colour.word}]"

def Table.escapedRows (t : Table) : List (List String) := t.rows.map (·.map escaped)

structure Outcome where
  exitCode : Nat
  shown : List Shown := []
  report : Option Text.Json := none
  /-- The failure that was not handled. -/
  failure : Option Failure := none
  events : List Log.Event := []

def Outcome.reportText (o : Outcome) : String :=
  match o.report with
  | some report => report.render ++ "\n"
  | none => ""

/-- The end of a command that cannot do what it is asked for. -/
def refused (failure : Failure) (events : List Log.Event) : Outcome :=
  { exitCode := 2, shown := [.coloured .red failure.message], events }

/-- The end of a command by a failure that it does not handle. -/
def broken (failure : Failure) (events : List Log.Event) : Outcome :=
  { exitCode := 1, failure := some failure, events }

def ruleReport (r : Rule) : Text.Json :=
  .object [("name", .text r.name), ("action", .text r.action.word)]

end FirewallPolicy.Command
