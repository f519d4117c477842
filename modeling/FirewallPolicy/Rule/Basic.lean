import FirewallPolicy.Packet

/-!
Firewall rules.

A rule names the packets it is about by source address, source port, destination port and protocol,
and says whether to let them through. `Rule.condition` is the formula over the packet variables;
`Rule.Matches` says the same of one datagram.
-/

namespace FirewallPolicy

inductive Action where
  | allow
  | block
  deriving DecidableEq, Repr

def Action.word : Action → String
  | allow => "Allow"
  | block => "Block"

structure Rule where
  name : String
  remoteAddresses : ValueSet .address := .all
  remotePorts : ValueSet .port := .all
  localPorts : ValueSet .port := .all
  protocol : Protocol := .wildcard
  enabled : Bool := true
  action : Action := .allow
  deriving DecidableEq, Repr

namespace Rule

def condition (r : Rule) : Except Invalid Formula := do
  let address ← r.remoteAddresses.contains Field.sourceAddress
  let sourcePort ← r.remotePorts.contains Field.sourcePort
  let destinationPort ← r.localPorts.contains Field.destinationPort
  let protocol ← r.protocol.matching Field.protocol
  return .conjunction [address, sourcePort, destinationPort, protocol]

def Matches (r : Rule) (d : Datagram) : Prop :=
  r.remoteAddresses.Contains d.sourceAddress ∧ r.remotePorts.Contains d.sourcePort ∧
    r.localPorts.Contains d.destinationPort ∧ r.protocol.Matches d.protocol

instance (r : Rule) (d : Datagram) : Decidable (r.Matches d) :=
  inferInstanceAs (Decidable (_ ∧ _))

end Rule

end FirewallPolicy
