import FirewallPolicy.Command.Equivalence
import FirewallPolicy.Proofs.Dump.Cell
import FirewallPolicy.Proofs.Query.Decision
import FirewallPolicy.Proofs.Rule.Protocol
import FirewallPolicy.Proofs.Search.Coverage

/-!
A reported packet can be asked about again.

The table of packets shows each field of a packet as a word: an address with dots, a number in
decimal, the name of a protocol, or "Any" for an open field. These words, given to a query, are read
as the same packet (`readPacket_words`). None of the words of a present field is taken for "Any", and
no decimal text for a name (`Protocol.numberOf?_toDigits`).

Proved: `replay_of_mem_inconsistencies`, whatever solver found an inconsistency, a query about the packet
that its row shows gives the decision and the rules that were reported, for each of the firewalls.
-/

namespace FirewallPolicy

open Text

/-! ## Words -/

namespace Query

theorem readNumber_toString {n : Nat} (h : n < UInt32.size) :
    isAny (toString (n : Int)).toList = false ∧
      Dump.readNumber (toString (n : Int)).toList = .ok (n : Int) := by
  rw [toList_toString]
  exact ⟨isAny_toDigits n, Dump.readNumber_toDigits h⟩

theorem readProtocolWord_nameOf {n : Nat} (h : n < UInt32.size) :
    isAny (Protocol.nameOf n).toList = false ∧
      readProtocolWord (Protocol.nameOf n).toList = .ok (n : Int) := by
  rcases Protocol.nameOf_natCast n with ⟨p, hp, rfl, hname⟩ | hname
  · obtain ⟨hany, hnumber⟩ := Protocol.numberOf?_of_mem_names p hp
    rw [hname, readProtocolWord, hnumber]
    exact ⟨hany, rfl⟩
  · obtain ⟨hany, hdecimal⟩ := readNumber_toString h
    have hnone : Protocol.numberOf? (toString (n : Int)).toList = none := by
      rw [toList_toString]
      exact Protocol.numberOf?_toDigits n
    rw [hname, readProtocolWord, hnone]
    exact ⟨hany, hdecimal⟩

theorem readWord_shown {α : Type} {read : List Char → Except Invalid α} {text : α → String}
    {o : Option α} (h : ∀ x, o = some x → isAny (text x).toList = false ∧ read (text x).toList = .ok x) :
    readWord read (some (Packet.shown text o).toList) = .ok o := by
  cases o with
  | none =>
    have hany : isAny "Any".toList = true := by decide
    exact if_pos hany
  | some x =>
    obtain ⟨hany, hread⟩ := h x rfl
    simp [readWord, Packet.shown, hany, hread, Except.map]

end Query

def Packet.words (p : Packet) : Query.Words where
  source := some p.addressText.toList
  sourcePort := some p.sourcePortText.toList
  destinationPort := some p.destinationPortText.toList
  protocol := some p.protocolText.toList

/-- A packet whose fields fit is read from the words that show it. -/
theorem Query.readPacket_words {p : Packet} (h : p.Covers p.datagram) : readPacket p.words = .ok p := by
  obtain ⟨-, hs, hd, hp⟩ := h
  have hfits : ∀ {size : Nat} (x : Fin size), size ≤ UInt32.size → (x : Nat) < UInt32.size :=
    fun x hsize => Nat.lt_of_lt_of_le x.isLt hsize
  have haddress : readWord Dump.readAddress p.words.source = .ok p.sourceAddress :=
    readWord_shown fun a _ => ⟨a.isAny_text, Dump.readAddress_text a⟩
  have hsource : readWord Dump.readNumber p.words.sourcePort = .ok p.sourcePort :=
    readWord_shown fun n hn => by
      rw [hs n hn]
      exact readNumber_toString (hfits _ (by decide))
  have hdestination : readWord Dump.readNumber p.words.destinationPort = .ok p.destinationPort :=
    readWord_shown fun n hn => by
      rw [hd n hn]
      exact readNumber_toString (hfits _ (by decide))
  have hprotocol : readWord readProtocolWord p.words.protocol = .ok p.protocol :=
    readWord_shown fun n hn => by
      rw [hp n hn]
      exact readProtocolWord_nameOf (hfits _ (by decide))
  simp [readPacket, haddress, hsource, hdestination, hprotocol]

/-! ## Rows of the table -/

namespace Command.Equivalence

/-- The words of a row of the table of packets: those between the number of the packet and the name of
the firewall that lets it through. -/
def rowWords : List String → Option Query.Words
  | [_, address, sourcePort, destinationPort, protocol, _] =>
    some ⟨some address.toList, some sourcePort.toList, some destinationPort.toList,
      some protocol.toList⟩
  | _ => none

theorem rowWords_packetTable {found : List Inconsistency} {k : Nat} {i : Inconsistency}
    (h : found[k]? = some i) :
    ((packetTable found).rows[k]?).bind rowWords = some i.packet.words := by
  simp [packetTable, h, rowWords, Packet.words]

end Command.Equivalence

namespace Search

/-- Wherever an inconsistency stands in a table of packets, the words of its row are read as its packet,
and a query about this packet gives the decision of each firewall and its rules as they were
reported. -/
theorem replay_of_mem_inconsistencies {first second : Firewall} {limit : Option Int} {s : Search}
    (hstart : start first second limit = .ok s) {calls : List Call}
    (hcalls : ∀ c ∈ calls, c.solver.FitsPackets) {i : Inconsistency}
    (hi : i ∈ (s.run calls).inconsistencies) {solver : Solver} (hsolver : solver.Correct)
    (hdecisive : solver.Decisive) :
    (∀ (found : List Inconsistency) (k : Nat), found[k]? = some i →
      ∃ words, ((Command.Equivalence.packetTable found).rows[k]?).bind Command.Equivalence.rowWords =
          some words ∧
        Query.readPacket words = .ok i.packet) ∧
      Query.run solver first i.packet = .ok ⟨i.allowed.1, i.rules.1⟩ ∧
      Query.run solver second i.packet = .ok ⟨i.allowed.2, i.rules.2⟩ := by
  obtain ⟨hreport, -, hself⟩ := eq_report_of_mem (grounded_of_start hstart) hcalls hi
  rw [eq_of_start hstart] at hreport
  refine ⟨fun found k hk => ?_, ?_, ?_⟩
  · exact ⟨i.packet.words, Command.Equivalence.rowWords_packetTable hk, Query.readPacket_words hself⟩
  · rw [Query.run_eq hsolver hdecisive first hself, hreport]
    rfl
  · rw [Query.run_eq hsolver hdecisive second hself, hreport]
    rfl

/-- The row of the web requests has two open fields, a number and a name. Asked about again, they are
let through by the one rule for them. -/
theorem web_requests_are_replayed :
    ∃ s i, start web {} none = .ok s ∧ Solver.exact.Correct ∧ Solver.exact.Decisive ∧
      i ∈ (s.run [⟨.exact, false⟩]).inconsistencies ∧
      (Command.Equivalence.packetTable [i]).rows = [["0", "Any", "Any", "80", "TCP", "web"]] ∧
      (∃ words, ((Command.Equivalence.packetTable [i]).rows[0]?).bind Command.Equivalence.rowWords =
          some words ∧
        Query.readPacket words = .ok i.packet) ∧
      Query.run .exact web i.packet = .ok ⟨true, i.rules.1⟩ ∧
      Query.run .exact {} i.packet = .ok ⟨false, []⟩ := by
  have hstart : start web {} none = .ok { firewalls := (web, {}) } := rfl
  have hi : report { firewalls := (web, {}) } { destinationPort := some 80, protocol := some 6 } ∈
      (run { firewalls := (web, {}) } [⟨.exact, false⟩]).inconsistencies := by decide +kernel
  have hcalls : ∀ c ∈ [Call.mk .exact false], c.solver.FitsPackets := by
    simpa using exact_correct.fitsPackets
  obtain ⟨hrow, hfirst, hsecond⟩ :=
    replay_of_mem_inconsistencies hstart hcalls hi exact_correct exact_decisive
  refine ⟨_, _, hstart, exact_correct, exact_decisive, hi, ?_, hrow _ 0 rfl, hfirst, hsecond⟩
  decide +kernel

end Search

end FirewallPolicy
