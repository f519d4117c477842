import FirewallPolicy.Command.Options
import FirewallPolicy.Command.Output
import FirewallPolicy.Firewall.Load
import FirewallPolicy.Search
import FirewallPolicy.Text.Count
import FirewallPolicy.Timeout

/-!
The command that compares two firewalls.

It reads two rule dumps, searches for packets that they decide differently, and shows them as tables
or as a JSON report. It ends with 0 if the search shows that there are none, with 1 if it found some
or was stopped, and with 2 if a dump cannot be read or the solver does not know.

What the command is asked to do is done in three parts (`perform`): `prepare` reads the files, the
search runs, and `conclude` shows what came of it. The search is apart so that a clock can be read
between its steps.
-/

namespace FirewallPolicy.Command.Equivalence

open Text

structure Options where
  firstFile : String
  secondFile : String
  firstBlocks : Bool
  secondBlocks : Bool
  count : Int
  timeout : Option Timeout
  separator : String
  json : Bool
  verbose : Bool
  deriving DecidableEq, Repr

inductive Name where
  | firstFile
  | secondFile
  | firstBlocks
  | secondBlocks
  | count
  | timeout
  | separator
  | json
  | verbose
  deriving DecidableEq, Repr

def spellings : List (Spelling Name) :=
  [⟨"--firewall1", .firstFile, .takesValue⟩,
    ⟨"--firewall2", .secondFile, .takesValue⟩,
    ⟨"--block-by-default1", .firstBlocks, .sets true⟩,
    ⟨"--allow-by-default1", .firstBlocks, .sets false⟩,
    ⟨"--block-by-default2", .secondBlocks, .sets true⟩,
    ⟨"--allow-by-default2", .secondBlocks, .sets false⟩,
    ⟨"--inconsistency-count", .count, .takesValue⟩,
    ⟨"--timeout", .timeout, .takesValue⟩,
    ⟨"--separator", .separator, .takesValue⟩,
    ⟨"--json", .json, .sets true⟩,
    ⟨"--verbose", .verbose, .sets true⟩,
    ⟨"-v", .verbose, .sets true⟩]

/-- The environment variable of an option. -/
def setting : Name → Option String
  | .firstBlocks => some "WINFW_BLOCK_BY_DEFAULT1"
  | .secondBlocks => some "WINFW_BLOCK_BY_DEFAULT2"
  | .count => some "WINFW_INCONSISTENCY_COUNT"
  | .timeout => some "WINFW_TIMEOUT"
  | .separator => some "WINFW_SEPARATOR"
  | .verbose => some "WINFW_VERBOSE"
  | .firstFile => none
  | .secondFile => none
  | .json => none

def defaultCount : Int := 10

def readCount (word : String) : Option Int := (Count.read word.toList).map (↑·)

def readTimeout (word : String) : Option Timeout :=
  (Timeout.read word.toList).filter (!·.isNegative)

/-- A value that may be missing but has to be usable if it is there. -/
def optional {α : Type} (read : String → Option α) : Option String → Option (Option α)
  | none => some none
  | some word => (read word).map some

def readOptions (isFile : String → Bool) (c : Call Name) : Option Options := do
  let firstFile ← (c.word? .firstFile).filter isFile
  let secondFile ← (c.word? .secondFile).filter isFile
  let firstBlocks ← c.flag .firstBlocks true
  let secondBlocks ← c.flag .secondBlocks true
  let count ← optional readCount (c.word? .count)
  let timeout ← optional readTimeout (c.word? .timeout)
  let json ← c.flag .json false
  let verbose ← c.flag .verbose false
  return {
    firstFile, secondFile, firstBlocks, secondBlocks, timeout, json, verbose
    count := count.getD defaultCount
    separator := (c.word? .separator).getD "\t" }

def asked (environment : String → Option String) (file : String → Option (List UInt8))
    (words : List String) : Except Usage Options :=
  Command.asked spellings setting (readOptions fun path => (file path).isSome) environment words

/-! ## Before the search -/

structure Ready where
  options : Options
  search : Search
  events : List Log.Event

def Options.level (o : Options) : Log.Level := if o.verbose then .debug else .info

/-- What the command does about a failure: a dump that cannot be read and a solver that does not
know are reported, any other failure is not handled. -/
def failed (o : Options) (events : List Log.Event) : Failure → Outcome
  | .dump cause => refused (.dump cause) (Log.atLeast o.level events)
  | .unknown reason => refused (.unknown reason) (Log.atLeast o.level events)
  | failure => broken failure (Log.atLeast o.level events)

def note (text : String) : Log.Event := ⟨.info, .equivalenceCommand, text⟩

def prepare (file : String → Option (List UInt8)) (o : Options) : Except Outcome Ready :=
  let read (path name : String) (blocks : Bool) : Except Failure Firewall :=
    Firewall.ofFile path.toList (some name) ⟨blocks, o.separator.toList⟩ ((file path).getD [])
  let first := read o.firstFile "First" o.firstBlocks
  let events := note "Parsing first firewall..." :: Firewall.loadEvents first
  match first with
  | .error failure => .error (failed o events failure)
  | .ok first =>
    let second := read o.secondFile "Second" o.secondBlocks
    let events := events ++ note "Parsing second firewall..." :: Firewall.loadEvents second
    match second with
    | .error failure => .error (failed o events failure)
    | .ok second =>
      let events := events ++ [note "Running equivalence check..."]
      match Search.start first second (some o.count) with
      | .error failure => .error (failed o events failure)
      | .ok search => .ok ⟨o, search, events⟩

/-! ## After the search -/

def packetTable (found : List Inconsistency) : Table :=
  { title := "Inconsistently-handled packets"
    columns := ["PID", "Src Address", "Src Port", "Dest Port", "Protocol", "Allowed By"]
    rows := found.zipIdx.map fun (i, id) =>
      [toString id, i.packet.addressText, i.packet.sourcePortText, i.packet.destinationPortText,
        i.packet.protocolText, i.allowedBy.name] }

def ruleTable (found : List Inconsistency) : Table :=
  let rows (id : Nat) (fw : Firewall) (rules : List Rule) : List (List String) :=
    rules.map fun r => [toString id, fw.name, r.action.word, r.name]
  { title := "Firewall rules matching inconsistently-handled packets"
    columns := ["PID", "Firewall", "Action", "Rule Name"]
    rows := found.zipIdx.flatMap fun (i, id) =>
      rows id i.firewalls.1 i.rules.1 ++ rows id i.firewalls.2 i.rules.2 }

def optionalNumber : Option Int → Json
  | none => .null
  | some n => .number n

def inconsistencyReport (i : Inconsistency) : Json :=
  .object
    [("source_address", (i.packet.sourceAddress.map fun a => Json.text a.text).getD .null),
      ("source_port", optionalNumber i.packet.sourcePort),
      ("destination_port", optionalNumber i.packet.destinationPort),
      ("protocol", optionalNumber i.packet.protocol),
      ("allowed", .list [.bool i.allowed.1, .bool i.allowed.2]),
      ("rule_matches", .list [.list (i.rules.1.map ruleReport), .list (i.rules.2.map ruleReport)])]

def report (equivalent exhausted : Bool) (found : List Inconsistency) : Json :=
  .object
    [("equivalent", .bool equivalent), ("exhausted", .bool exhausted),
      ("inconsistencies", .list (found.map inconsistencyReport))]

def shown (equivalent : Bool) (found : List Inconsistency) : List Shown :=
  if equivalent then [.coloured .green "Firewalls are equivalent."]
  else if found.isEmpty then
    [.coloured .yellow "No inconsistencies found before the search was stopped."]
  else
    [.coloured .red "Firewalls are NOT equivalent.", .blank, .table (packetTable found), .blank,
      .table (ruleTable found)]

def conclude (ready : Ready) (trace : Search.Trace) : Outcome :=
  let o := ready.options
  let events := ready.events ++ Search.events ready.search trace
  match trace.failure? with
  | some failure => failed o events failure
  | none =>
    let found := trace.inconsistencies
    let exhausted := (trace.last ready.search).exhausted
    let equivalent := found.isEmpty && exhausted
    { exitCode := if equivalent then 0 else 1
      shown := if o.json then [] else shown equivalent found
      report := if o.json then some (report equivalent exhausted found) else none
      events := Log.atLeast o.level events }

/-- Whether the search is out of time after so many nanoseconds. -/
def Ready.expired (ready : Ready) (elapsed : Nat) : Bool :=
  ready.options.timeout.any (·.passed elapsed)

/-- Compares the firewalls, with a solver for every query and a clock reading before it. -/
def perform (file : String → Option (List UInt8)) (solver : Nat → Solver) (elapsed : Nat → Nat)
    (o : Options) : Outcome :=
  match prepare file o with
  | .error outcome => outcome
  | .ok ready => conclude ready (ready.search.drain solver fun n => ready.expired (elapsed n))

def run (environment : String → Option String) (file : String → Option (List UInt8))
    (solver : Nat → Solver) (elapsed : Nat → Nat) (words : List String) : Outcome :=
  match asked environment file words with
  | .error usage => { exitCode := usage.exitCode }
  | .ok o => perform file solver elapsed o

end FirewallPolicy.Command.Equivalence
