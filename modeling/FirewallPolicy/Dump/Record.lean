import FirewallPolicy.Dump.Cell
import FirewallPolicy.Dump.Header
import FirewallPolicy.Text.Lines

/-!
Records of a rule dump, and the dump as a whole.

A record is one line; its cells are found through the header. The cells are read in a fixed order,
and the first that is missing or refused makes the record unusable. A dump is a header and records:
blank lines are passed over, and an unusable record is skipped with a warning that names its line.
-/

namespace FirewallPolicy.Dump

open Text

def cell (h : Header) (cells : List (List Char)) (column : Column) : Except Fault (List Char) :=
  match h.position? column.title with
  | none => .error (.missingColumns [column.title])
  | some i =>
    match cells[i]? with
    | some c => .ok c
    | none => .error (.shortRecord h.titles.length cells.length)

def ofCell {α : Type} : Except Invalid α → Except Fault α
  | .ok x => .ok x
  | .error cause => .error (.badCell cause)

def ruleOfCells (h : Header) (cells : List (List Char)) : Except Fault Rule := do
  let name ← cell h cells .name
  let remoteAddresses ← ofCell (readAddresses (← cell h cells .remoteAddress))
  let remotePorts ← ofCell (readPorts (← cell h cells .remotePort))
  let localPorts ← ofCell (readPorts (← cell h cells .localPort))
  let protocol ← ofCell (Protocol.read (← cell h cells .protocol))
  let enabled ← cell h cells .enabled
  let action ← ofCell (readAction (← cell h cells .action))
  return {
    name := String.ofList (trim name)
    remoteAddresses, remotePorts, localPorts, protocol
    enabled := readEnabled enabled
    action }

def readRecord (h : Header) (separator line : List Char) : Except Fault Rule :=
  ruleOfCells h (split separator line)

structure Contents where
  rules : List Rule
  warnings : List String
  deriving DecidableEq, Repr

def warning (lineNumber : Nat) (fault : Fault) : String :=
  s!"Skipping line {lineNumber} - {fault.message}"

/-- Reads the records from the given line on. -/
def readRecords (h : Header) (separator : List Char) : Nat → List (List Char) → Contents
  | _, [] => ⟨[], []⟩
  | n, line :: rest =>
    let more := readRecords h separator (n + 1) rest
    if (trim line).isEmpty then more
    else match readRecord h separator line with
      | .ok rule => { more with rules := rule :: more.rules }
      | .error fault => { more with warnings := warning n fault :: more.warnings }

def read (separator text : List Char) : Except Failure Contents := do
  let all := lines text
  let header ← Header.read requiredTitles separator (all.headD [])
  return readRecords header separator 2 all.tail

end FirewallPolicy.Dump
