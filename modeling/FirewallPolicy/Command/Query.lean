import FirewallPolicy.Command.Options
import FirewallPolicy.Command.Output
import FirewallPolicy.Firewall.Load
import FirewallPolicy.Query

/-!
The command that asks what a firewall does with one packet.

It reads a rule dump and the words for a packet, and shows the decision and the matching rules as
text or as a JSON report. It ends with 0 if there is a decision, and with 2 if the dump, a word or
a value is refused.
-/

namespace FirewallPolicy.Command.Query

open Text

structure Options where
  file : String
  blocks : Bool
  words : FirewallPolicy.Query.Words
  separator : String
  json : Bool
  verbose : Bool
  deriving DecidableEq, Repr

inductive Name where
  | file
  | blocks
  | source
  | sourcePort
  | destinationPort
  | protocol
  | separator
  | json
  | verbose
  deriving DecidableEq, Repr

def spellings : List (Spelling Name) :=
  [⟨"--firewall", .file, .takesValue⟩,
    ⟨"--block-by-default", .blocks, .sets true⟩,
    ⟨"--allow-by-default", .blocks, .sets false⟩,
    ⟨"--src-address", .source, .takesValue⟩,
    ⟨"--src-port", .sourcePort, .takesValue⟩,
    ⟨"--dst-port", .destinationPort, .takesValue⟩,
    ⟨"--protocol", .protocol, .takesValue⟩,
    ⟨"--separator", .separator, .takesValue⟩,
    ⟨"--json", .json, .sets true⟩,
    ⟨"--verbose", .verbose, .sets true⟩,
    ⟨"-v", .verbose, .sets true⟩]

def setting : Name → Option String
  | .blocks => some "WINFW_BLOCK_BY_DEFAULT"
  | .separator => some "WINFW_SEPARATOR"
  | .verbose => some "WINFW_VERBOSE"
  | .file => none
  | .source => none
  | .sourcePort => none
  | .destinationPort => none
  | .protocol => none
  | .json => none

def readOptions (isFile : String → Bool) (c : Call Name) : Option Options := do
  let file ← (c.word? .file).filter isFile
  let blocks ← c.flag .blocks true
  let source ← c.word? .source
  let sourcePort ← c.word? .sourcePort
  let destinationPort ← c.word? .destinationPort
  let json ← c.flag .json false
  let verbose ← c.flag .verbose false
  return {
    file, blocks, json, verbose
    words := ⟨some source.toList, some sourcePort.toList, some destinationPort.toList,
      (c.word? .protocol).map String.toList⟩
    separator := (c.word? .separator).getD "\t" }

def asked (environment : String → Option String) (file : String → Option (List UInt8))
    (words : List String) : Except Usage Options :=
  Command.asked spellings setting (readOptions fun path => (file path).isSome) environment words

def Options.level (o : Options) : Log.Level := if o.verbose then .debug else .info

/-- What the command does about a failure: refused values and dumps are reported, any other failure
is not handled. -/
def failed (o : Options) (events : List Log.Event) : Failure → Outcome
  | .dump cause => refused (.dump cause) (Log.atLeast o.level events)
  | .invalid cause => refused (.invalid cause) (Log.atLeast o.level events)
  | failure => broken failure (Log.atLeast o.level events)

def note (text : String) : Log.Event := ⟨.info, .queryCommand, text⟩

def ruleTable (rules : List Rule) : Table :=
  { title := "Firewall rules matching the test packet"
    columns := ["Action", "Rule Name"]
    rows := rules.map fun r => [r.action.word, r.name] }

def report (result : FirewallPolicy.Query.Result) : Json :=
  .object [("allowed", .bool result.allowed), ("matches", .list (result.rules.map ruleReport))]

def shown (result : FirewallPolicy.Query.Result) : List Shown :=
  let verdict : Shown :=
    if result.allowed then .coloured .green "Packet is allowed by firewall."
    else .coloured .red "Packet is NOT allowed by firewall."
  if result.rules.isEmpty then [verdict, .plain "No firewall rules match the test packet."]
  else [verdict, .table (ruleTable result.rules)]

def conclude (o : Options) (events : List Log.Event) (result : FirewallPolicy.Query.Result) :
    Outcome :=
  { exitCode := 0
    shown := if o.json then [] else shown result
    report := if o.json then some (report result) else none
    events := Log.atLeast o.level events }

/-- Reads the dump and the packet, and asks. -/
def perform (file : String → Option (List UInt8)) (solver : Solver) (o : Options) : Outcome :=
  let content := (file o.file).getD []
  let firewall := Firewall.ofFile o.file.toList none ⟨o.blocks, o.separator.toList⟩ content
  let events := note "Parsing firewall rules..." :: Firewall.loadEvents firewall
  match firewall with
  | .error failure => failed o events failure
  | .ok firewall =>
    match FirewallPolicy.Query.readPacket o.words with
    | .error cause => failed o events (.invalid cause)
    | .ok packet =>
      let events := events ++ note "Checking action of firewall on packet..." ::
        FirewallPolicy.Query.events packet solver
      match FirewallPolicy.Query.run solver firewall packet with
      | .error failure => failed o events failure
      | .ok result => conclude o events result

def run (environment : String → Option String) (file : String → Option (List UInt8))
    (solver : Solver) (words : List String) : Outcome :=
  match asked environment file words with
  | .error usage => { exitCode := usage.exitCode }
  | .ok o => perform file solver o

end FirewallPolicy.Command.Query
