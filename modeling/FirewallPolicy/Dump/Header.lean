import FirewallPolicy.Failure
import FirewallPolicy.Text.Blank
import FirewallPolicy.Text.Split

/-!
The header line of a rule dump.

The header names the columns. Columns may come in any order and there may be more than are
required; where a name comes more than once, the last column of that name counts.
-/

namespace FirewallPolicy.Dump

open Text

inductive Column where
  | name
  | enabled
  | action
  | localPort
  | remoteAddress
  | remotePort
  | protocol
  deriving DecidableEq, Repr

def Column.title : Column → String
  | name => "Name"
  | enabled => "Enabled"
  | action => "Action"
  | localPort => "Local Port"
  | remoteAddress => "Remote Address"
  | remotePort => "Remote Port"
  | protocol => "Protocol"

def requiredTitles : List String :=
  [Column.name, .enabled, .action, .localPort, .remoteAddress, .remotePort, .protocol].map
    Column.title

structure Header where
  titles : List String
  deriving DecidableEq, Repr

namespace Header

/-- The last column of a title. -/
def position? (h : Header) (title : String) : Option Nat :=
  (h.titles.reverse.idxOf? title).map fun i => h.titles.length - 1 - i

/-- Every title with its column, by title. -/
def index (h : Header) : List (String × Nat) :=
  (h.titles.eraseDups.filterMap fun t => (h.position? t).map (t, ·)).mergeSort
    fun a b => decide (a.1 ≤ b.1)

/-- Reads a header that has to have the given titles. A blank line is no header, whatever the
separator. -/
def read (required : List String) (separator line : List Char) : Except Failure Header :=
  if (trim line).isEmpty then .error (.dump .missingHeader)
  else if separator.isEmpty then .error (.invalid .emptySeparator)
  else
    let header : Header := ⟨(split separator line).map fun c => String.ofList (trim c)⟩
    match required.filter (!header.titles.contains ·) with
    | [] => .ok header
    | missing => .error (.dump (.missingColumns missing))

end Header

end FirewallPolicy.Dump
