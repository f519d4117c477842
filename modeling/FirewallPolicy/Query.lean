import FirewallPolicy.Dump.Cell
import FirewallPolicy.Solver.Session

/-!
Asking what a firewall does with one packet.

The solver is asked for a packet of the pattern; the decision and the matching rules are read off
its model. An open field counts as zero. `readPacket` reads a packet from the words of a request,
where each field may be left open by the word "any".
-/

namespace FirewallPolicy.Query

structure Result where
  allowed : Bool
  rules : List Rule
  deriving DecidableEq, Repr

def run (solver : Solver) (fw : Firewall) (packet : Packet) : Except Failure Result := do
  let pattern ← Failure.ofInvalid packet.pattern
  match ← solver.ask pattern with
  | none => throw (.unsatisfiable packet)
  | some m => do
    let (allowed, m) ← m.admitted fw
    let (rules, _) ← m.matchingRules fw.rules
    return ⟨allowed, rules⟩

/-- Whether the solver is asked at all: only about a packet whose fields fit. -/
def asks (packet : Packet) : Bool := packet.pattern.toBool

def events (packet : Packet) (solver : Solver) : List Log.Event :=
  match packet.pattern with
  | .error _ => []
  | .ok pattern => Session.queryEvent 1 (solver.ask pattern)

/-! ## Packets in words -/

structure Words where
  source : Option (List Char) := none
  sourcePort : Option (List Char) := none
  destinationPort : Option (List Char) := none
  protocol : Option (List Char) := none
  deriving DecidableEq, Repr

/-- Reads a word that may leave its field open. -/
def readWord {α : Type} (read : List Char → Except Invalid α) :
    Option (List Char) → Except Invalid (Option α)
  | none => .ok none
  | some word => if Text.isAny word then .ok none else (read word).map some

def readProtocolWord (word : List Char) : Except Invalid Int :=
  match Protocol.numberOf? word with
  | some n => .ok n
  | none => Dump.readNumber word

/-- Reads a packet; the protocol is looked at first. -/
def readPacket (words : Words) : Except Invalid Packet := do
  let protocol ← readWord readProtocolWord words.protocol
  let sourceAddress ← readWord Dump.readAddress words.source
  let sourcePort ← readWord Dump.readNumber words.sourcePort
  let destinationPort ← readWord Dump.readNumber words.destinationPort
  return ⟨sourceAddress, sourcePort, destinationPort, protocol⟩

end FirewallPolicy.Query
