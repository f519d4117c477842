import FirewallPolicy.Formula.Eval
import FirewallPolicy.Rule.Protocol

/-!
Packets, with fields that may be left open.

A packet has four fields; an open field stands for every value. The ports and the protocol of a
packet are any integers until the packet is used: `Packet.pattern` is the formula that a packet's
present fields have their values, and it refuses a value that does not fit its field.

A `Datagram` is a packet with every field present and fitting. `Packet.Covers` says which datagrams
a packet stands for, and `Packet.datagram` puts zero for every open field.
-/

namespace FirewallPolicy

/-! ## The variables of a packet -/

namespace Field

def sourceAddress : Variable := ⟨"sourceAddress", 32⟩

def sourcePort : Variable := ⟨"sourcePort", 16⟩

def destinationPort : Variable := ⟨"destinationPort", 16⟩

def protocol : Variable := ⟨"protocol", 8⟩

end Field

/-! ## Datagrams -/

structure Datagram where
  sourceAddress : Fin UInt32.size
  sourcePort : Fin UInt16.size
  destinationPort : Fin UInt16.size
  protocol : Fin UInt8.size
  deriving DecidableEq, Repr

namespace Datagram

/-- The datagram of four numbers, each cut to the bits of its field. -/
def ofNats (sourceAddress sourcePort destinationPort protocol : Nat) : Datagram :=
  ⟨Fin.ofNat _ sourceAddress, Fin.ofNat _ sourcePort, Fin.ofNat _ destinationPort,
    Fin.ofNat _ protocol⟩

def assignment (d : Datagram) : Assignment := fun v =>
  if v = Field.sourceAddress then d.sourceAddress
  else if v = Field.sourcePort then d.sourcePort
  else if v = Field.destinationPort then d.destinationPort
  else if v = Field.protocol then d.protocol
  else 0

end Datagram

/-! ## Packets -/

structure Packet where
  sourceAddress : Option Address := none
  sourcePort : Option Int := none
  destinationPort : Option Int := none
  protocol : Option Int := none
  deriving DecidableEq, Repr

namespace Packet

def pinned (v : Variable) (value : Int) : Except Invalid Formula := do
  v.checkValue value
  return .equals v value

def present (p : Packet) : List (Variable × Int) :=
  [(Field.sourceAddress, p.sourceAddress.map fun a => (a.value : Int)),
    (Field.sourcePort, p.sourcePort),
    (Field.destinationPort, p.destinationPort),
    (Field.protocol, p.protocol)].filterMap fun f => f.2.map (f.1, ·)

def pattern (p : Packet) : Except Invalid Formula := do
  let parts ← p.present.mapM fun f => pinned f.1 f.2
  return .conjunction parts

def Covers (p : Packet) (d : Datagram) : Prop :=
  (∀ a, p.sourceAddress = some a → a.value = d.sourceAddress) ∧
  (∀ n, p.sourcePort = some n → n = (d.sourcePort : Nat)) ∧
  (∀ n, p.destinationPort = some n → n = (d.destinationPort : Nat)) ∧
  (∀ n, p.protocol = some n → n = (d.protocol : Nat))

/-- The datagram with zero for every open field. -/
def datagram (p : Packet) : Datagram :=
  .ofNats ((p.sourceAddress.map (·.value)).getD 0) (p.sourcePort.getD 0).toNat
    (p.destinationPort.getD 0).toNat (p.protocol.getD 0).toNat

/-! ## Text -/

/-- A field as it is shown, with a word for an open one. -/
def shown {α : Type} (text : α → String) : Option α → String
  | none => "Any"
  | some x => text x

def addressText (p : Packet) : String := shown Address.text p.sourceAddress

def sourcePortText (p : Packet) : String := shown toString p.sourcePort

def destinationPortText (p : Packet) : String := shown toString p.destinationPort

def protocolText (p : Packet) : String := shown Protocol.nameOf p.protocol

def text (p : Packet) : String :=
  s!"Src Address: {p.addressText} | Src Port: {p.sourcePortText} " ++
    s!"| Dest Port: {p.destinationPortText} | Protocol: {p.protocolText}"

end Packet

end FirewallPolicy
