import FirewallPolicy.Command.Equivalence
import FirewallPolicy.Command.Query

/-!
The command line. The first word chooses the command: `equivalence` compares two firewalls, `query`
asks about one packet.
-/

namespace FirewallPolicy.Command

def readEnvironment {O : Type} (spellings : List (Spelling O)) (setting : O → Option String) :
    IO (String → Option String) := do
  let names := spellings.filterMap fun s => setting s.option
  let values ← names.filterMapM fun name => return (← IO.getEnv name).map (name, ·)
  return fun name => values.lookup name

def readFiles (words : List String) : IO (String → Option (List UInt8)) := do
  let paths := words.flatMap fun word => [word, ((cutValue word).2).getD word]
  let files ← paths.eraseDups.filterMapM fun (path : String) => do
    try
      let bytes ← IO.FS.readBinFile path
      return some (path, bytes.toList)
    catch _ => return none
  return fun path => files.lookup path

def printTable (t : Table) : IO Unit := do
  IO.println t.title
  for row in t.columns :: t.rows do
    IO.println ("  ".intercalate row)

def printShown : Shown → IO Unit
  | .coloured _ text => IO.println text
  | .plain text => IO.println text
  | .blank => IO.println ""
  | .table t => printTable t

def finish (o : Outcome) : IO UInt32 := do
  for e in o.events do
    IO.eprintln e.text
  o.shown.forM printShown
  IO.print o.reportText
  if let some failure := o.failure then
    IO.eprintln failure.message
  return o.exitCode.toUInt32

partial def runSearch (ready : Equivalence.Ready) (started : Nat) (s : Search) :
    IO Search.Trace := do
  let now ← IO.monoNanosNow
  match s.next Solver.exact (ready.expired (now - started)) with
  | (after, .found i) => return (after, .found i) :: (← runSearch ready started after)
  | (after, step) => return [(after, step)]

def equivalence (words : List String) : IO UInt32 := do
  let environment ← readEnvironment Equivalence.spellings Equivalence.setting
  let file ← readFiles words
  match Equivalence.asked environment file words with
  | .error usage => return usage.exitCode.toUInt32
  | .ok o =>
    match Equivalence.prepare file o with
    | .error outcome => finish outcome
    | .ok ready =>
      let trace ← runSearch ready (← IO.monoNanosNow) ready.search
      finish (Equivalence.conclude ready trace)

def query (words : List String) : IO UInt32 := do
  let environment ← readEnvironment Query.spellings Query.setting
  finish (Query.run environment (← readFiles words) Solver.exact words)

end FirewallPolicy.Command

def main (args : List String) : IO UInt32 :=
  match args with
  | "equivalence" :: words => FirewallPolicy.Command.equivalence words
  | "query" :: words => FirewallPolicy.Command.query words
  | _ => do
    IO.eprintln "usage: equivalence OPTIONS | query OPTIONS"
    return 2
