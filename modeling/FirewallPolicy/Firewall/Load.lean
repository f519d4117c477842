import FirewallPolicy.Dump.Record
import FirewallPolicy.Firewall.Basic
import FirewallPolicy.Log
import FirewallPolicy.Text.Lines

/-!
Firewalls from rule dumps and from files.

A file is decoded as strict UTF-8 with its line ends made uniform, and names the firewall by its
stem unless another name is given.
-/

namespace FirewallPolicy.Firewall

open Text

structure Source where
  blockByDefault : Bool := true
  separator : List Char := ['\t']
  deriving DecidableEq, Repr

def ofDump (name : String) (source : Source) (text : List Char) : Except Failure Firewall := do
  let contents ← Dump.read source.separator text
  return ⟨name, source.blockByDefault, contents.rules, contents.warnings⟩

def warningEvents (warnings : List String) : List Log.Event := warnings.map (⟨.warning, .dump, ·⟩)

def loadEvents : Except Failure Firewall → List Log.Event
  | .error _ => []
  | .ok fw =>
    let name := if fw.name.isEmpty then "<unnamed>" else fw.name
    warningEvents fw.warnings ++
      [⟨.info, .dump, s!"Parsed {fw.rules.length} rules for firewall {name}"⟩]

/-! ## Files -/

/-- The last part of a path that names something. -/
def fileName (path : List Char) : List Char :=
  (((split ['/'] path).filter fun part => !(part.isEmpty || part == ['.'])).getLast?).getD []

/-- The file name without its last suffix. A dot at either end of the name starts no suffix. -/
def stem (path : List Char) : List Char :=
  let name := fileName path
  let suffix := name.reverse.takeWhile (· != '.')
  let kept := name.length - suffix.length - 1
  if 0 < kept && !suffix.isEmpty && suffix.length < name.length then name.take kept else name

def decodeFile (bytes : List UInt8) : Except Failure (List Char) :=
  match Utf8.decode bytes with
  | .ok text => .ok (unifyLineEnds text)
  | .error fault => .error (.invalid (.undecodable fault))

def ofFile (path : List Char) (name : Option String) (source : Source) (bytes : List UInt8) :
    Except Failure Firewall := do
  let text ← decodeFile bytes
  ofDump (name.getD (String.ofList (stem path))) source text

end FirewallPolicy.Firewall
