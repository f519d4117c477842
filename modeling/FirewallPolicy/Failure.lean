import FirewallPolicy.Dump.Fault
import FirewallPolicy.Packet

/-!
Why a request fails.

A request fails because of a value that is refused, a dump that cannot be read, or a solver that
gives no usable answer.
-/

namespace FirewallPolicy

inductive Failure where
  | invalid (cause : Invalid)
  | dump (cause : Dump.Fault)
  /-- The solver was asked about a formula with a hole. -/
  | hole
  | unknown (reason : String)
  /-- The solver found no packet of a pattern. -/
  | unsatisfiable (packet : Packet)
  /-- The solver's packet is decided alike by both firewalls. -/
  | notSeparating (packet : Packet)
  deriving DecidableEq, Repr

def Failure.message : Failure → String
  | invalid cause => cause.message
  | dump cause => cause.message
  | hole => "Unsupported formula variant: Formula"
  | unknown reason => s!"Solver returned unknown: {reason}"
  | unsatisfiable packet => s!"Packet pattern is unsatisfiable: {packet.text}"
  | notSeparating packet =>
    s!"Solver model does not separate the firewalls for packet {packet.text}"

def Failure.ofInvalid {α : Type} : Except Invalid α → Except Failure α
  | .ok x => .ok x
  | .error cause => .error (.invalid cause)

end FirewallPolicy
