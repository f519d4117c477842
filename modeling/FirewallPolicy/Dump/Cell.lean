import FirewallPolicy.Dump.Fault
import FirewallPolicy.Rule.Basic
import FirewallPolicy.Text.Split

/-!
The cells of a record.

Blanks around a cell, and around each entry of a list, do not count. A cell of addresses or ports is
the word "Any" or a list of entries between commas; empty entries are left out. An entry is one
number, two with a dash between them, or, for addresses, a network.
-/

namespace FirewallPolicy.Dump

open Text

def anyWord : List Char := "Any".toList

/-- The entries of a list cell, without those that are empty. -/
def entries (cell : List Char) : List (List Char) :=
  ((split [','] cell).map trim).filter (!·.isEmpty)

/-! ## Addresses -/

def readAddress (s : List Char) : Except Invalid Address :=
  Invalid.ofAddress (Address.read (trim s))

def readNetwork (s : List Char) : Except Invalid (Range .address) := do
  let n ← Invalid.ofAddress (Address.readNetwork s)
  Range.ofNetwork n

def readAddressRange (entry : List Char) : Except Invalid (Range .address) :=
  if entry.contains '/' then readNetwork entry
  else match splitOnce '-' entry with
    | some (low, high) => do
      let low ← readAddress low
      let high ← readAddress high
      return Range.ofAddresses low high
    | none => do
      let a ← readAddress entry
      return Range.ofAddress a

def readAddresses (cell : List Char) : Except Invalid (ValueSet .address) :=
  let text := trim cell
  if text = anyWord then .ok .all
  else do
    let ranges ← (entries text).mapM readAddressRange
    return .ofRanges ranges

/-! ## Ports -/

/-- Names for sets of ports that are known only while the firewall runs. -/
def portMacros : List String :=
  ["RPC Endpoint Mapper", "RPC Dynamic Ports", "IPHTTPS", "Edge Traversal", "PlayTo Discovery"]

def readNumber (s : List Char) : Except Invalid Int := Invalid.ofNumeral (Numeral.read s)

def readPortRange (entry : List Char) : Except Invalid (Range .port) :=
  match splitOnce '-' entry with
  | some (low, high) => do
    let low ← readNumber low
    let high ← readNumber high
    Range.ofBounds .port low high
  | none => do
    let n ← readNumber entry
    Range.single .port n

def readPorts (cell : List Char) : Except Invalid (ValueSet .port) :=
  let text := trim cell
  if text.isEmpty then .error .emptyPort
  else if text = anyWord then .ok .all
  else if portMacros.contains (String.ofList text) then .error (.portMacro (String.ofList text))
  else do
    let ranges ← (entries text).mapM readPortRange
    return .ofRanges ranges

/-! ## Flags -/

def readAction (cell : List Char) : Except Invalid Action :=
  let word := String.ofList (trim cell)
  if word = "Allow" then .ok .allow
  else if word = "Block" then .ok .block
  else .error (.unknownAction word)

def readEnabled (cell : List Char) : Bool := trim cell == "Yes".toList

end FirewallPolicy.Dump
