import FirewallPolicy.Proofs.Dump.Spelling
import FirewallPolicy.Proofs.Query.Decision
import FirewallPolicy.Proofs.Search.Completion

/-!
What is read from a dump can be used.

The numbers of a rule that is read fit the fields of a packet (`Rule.Recorded.inBounds`), whatever is
written in the dump: they are the numbers that the record spells, and a record that spells another one
is skipped. So the formulas of the rules and of the firewall can be built, a query about a packet whose
fields fit is answered (`Firewall.Usable`), and a search for what two firewalls decide differently is
completed.

Proved: `ofDump_usable`, all of this for every two dumps that can be read.
-/

namespace FirewallPolicy

/-- The numbers of the rule fit the fields of a packet, and its protocol is any or one number. -/
structure Rule.InBounds (r : Rule) : Prop where
  remoteAddresses : ∀ range ∈ r.remoteAddresses.ranges, range.low < 2 ^ 32 ∧ range.high < 2 ^ 32
  remotePorts : ∀ range ∈ r.remotePorts.ranges, range.low < 2 ^ 16 ∧ range.high < 2 ^ 16
  localPorts : ∀ range ∈ r.localPorts.ranges, range.low < 2 ^ 16 ∧ range.high < 2 ^ 16
  protocol : r.protocol = .wildcard ∨
    r.protocol.any = false ∧ 0 ≤ r.protocol.number ∧ r.protocol.number < 2 ^ 8

theorem Range.lt_two_pow {q : Quantity} (r : Range q) : r.low < 2 ^ q.width ∧ r.high < 2 ^ q.width := by
  have hpos : 0 < 2 ^ q.width := Nat.two_pow_pos _
  have hlow : r.low ≤ 2 ^ q.width - 1 := r.low_le
  have hhigh : r.high ≤ 2 ^ q.width - 1 := r.high_le
  omega

theorem Dump.ProtocolCell.inBounds {text : List Char} {p : Protocol} (h : ProtocolCell text p) :
    p = .wildcard ∨ p.any = false ∧ 0 ≤ p.number ∧ p.number < 2 ^ 8 := by
  cases h with
  | any => exact Or.inl rfl
  | number _ hone _ =>
    have hfits := p.fits.resolve_left (by simp [hone])
    have hmax : (Quantity.protocol.maximum : Int) = 255 := rfl
    exact Or.inr ⟨hone, hfits.1, by omega⟩

/-- A rule that is spelled in a dump has numbers that fit. -/
theorem Rule.Recorded.inBounds {r : Rule} {separator text : List Char} (h : r.Recorded separator text) :
    r.InBounds := by
  obtain ⟨_, -, _, -, hspelled⟩ := h
  obtain ⟨_, -, hprotocol⟩ := hspelled.protocol
  exact ⟨fun range _ => range.lt_two_pow, fun range _ => range.lt_two_pow,
    fun range _ => range.lt_two_pow, hprotocol.inBounds⟩

namespace Firewall

/-- What is asked of the firewall is answered. -/
structure Usable (fw : Firewall) : Prop where
  condition : ∀ r ∈ fw.rules, ∃ f, r.condition = .ok f
  admits : ∃ f, fw.admits = .ok f
  query : ∀ {solver : Solver}, solver.CorrectOnPackets → solver.Decisive → ∀ p : Packet, p.Fits →
    ∃ result, Query.run solver fw p = .ok result

theorem usable (fw : Firewall) : fw.Usable where
  condition r _ := by
    obtain ⟨f, hf, -⟩ := r.condition_means
    exact ⟨f, hf⟩
  admits := by
    obtain ⟨f, hf, -⟩ := fw.admits_means
    exact ⟨f, hf⟩
  query hsolver hdecisive p hp := by
    obtain ⟨d, -, hrun⟩ := Query.exists_datagram hsolver hdecisive (p.covers_datagram_iff.mpr hp)
    exact ⟨_, hrun fw⟩

/-- Of two dumps that can be read, every rule is spelled in a record and has numbers that fit; both
firewalls answer what they are asked; and a search for their differences, whatever its limit and its
deadline, ends without a failure. -/
theorem ofDump_usable {firstName secondName : String} {firstSource secondSource : Source}
    {firstText secondText : List Char} {first second : Firewall}
    (hfirst : ofDump firstName firstSource firstText = .ok first)
    (hsecond : ofDump secondName secondSource secondText = .ok second) :
    (∀ r ∈ first.rules, r.Recorded firstSource.separator firstText ∧ r.InBounds) ∧
    (∀ r ∈ second.rules, r.Recorded secondSource.separator secondText ∧ r.InBounds) ∧
    first.Usable ∧ second.Usable ∧
    ∀ {solver : Nat → Solver}, (∀ n, (solver n).SoundOnPackets) → (∀ n, (solver n).Decisive) →
      ∀ (expired : Nat → Bool) {limit : Option Int}, (∀ n, limit = some n → 0 ≤ n) →
        ∃ s, Search.start first second limit = .ok s ∧ (s.drain solver expired).failure? = none ∧
          ((s.drain solver expired).last s).phase = .done := by
  refine ⟨fun r hr => ?_, fun r hr => ?_, first.usable, second.usable, ?_⟩
  · have hrecorded := recorded_of_ofDump hfirst hr
    exact ⟨hrecorded, hrecorded.inBounds⟩
  · have hrecorded := recorded_of_ofDump hsecond hr
    exact ⟨hrecorded, hrecorded.inBounds⟩
  · intro solver hsolver hdecisive expired limit hlimit
    exact Search.drain_completes hsolver hdecisive expired first second hlimit

/-- A dump of one rule in odd spellings: a sign, an underscore, digits of other scripts, a zero in front, a
netmask and a range in the wrong order. A port below zero or beyond the largest makes no rule. -/
def oddDump : List Char :=
  ['\n'].intercalate ([Dump.requiredTitles,
    ["proxy", "Yes", "Allow", "+8_081, ٩٠٠٠-09100", "172.16.5.1/255.240.0.0, 172.16.0.9 - 172.16.0.1",
      "Any", "４７"],
    ["below", "Yes", "Block", "-1", "Any", "Any", "TCP"],
    ["beyond", "Yes", "Block", "65536", "Any", "Any", "TCP"]].map fun cells =>
      [';'].intercalate (cells.map String.toList))

def oddFirewall : Firewall where
  name := "odd"
  rules := [{
    name := "proxy"
    localPorts := .ofRanges [⟨8081, 8081, by decide, by decide⟩, ⟨9000, 9100, by decide, by decide⟩]
    remoteAddresses := .ofRanges
      [⟨2886729728, 2887778303, by decide, by decide⟩, ⟨2886729737, 2886729729, by decide, by decide⟩]
    protocol := ⟨false, 47, by decide⟩ }]
  warnings := ["Skipping line 3 - invalid literal for int() with base 10: ''",
    "Skipping line 4 - Port 65536 is outside 0..65535"]

def bareDump : List Char := ['\t'].intercalate (Dump.requiredTitles.reverse.map String.toList)

/-- The odd spellings are read, and what they spell fits. A query is answered, and a search that runs out
of time after one query is completed. -/
theorem odd_dump_usable :
    ofDump "odd" { separator := [';'] } oddDump = .ok oddFirewall ∧
      ofDump "bare" { blockByDefault := false } bareDump = .ok ⟨"bare", false, [], []⟩ ∧
      Solver.exact.CorrectOnPackets ∧ Solver.exact.Decisive ∧
      (∀ r ∈ oddFirewall.rules, r.Recorded [';'] oddDump ∧ r.InBounds) ∧
      (∃ result, Query.run .exact oddFirewall { destinationPort := some 9000 } = .ok result) ∧
      ∃ s, Search.start oddFirewall ⟨"bare", false, [], []⟩ (some 3) = .ok s ∧
        (s.drain (fun _ => .exact) (0 < ·)).failure? = none ∧
        ((s.drain (fun _ => .exact) (0 < ·)).last s).phase = .done := by
  have hodd : ofDump "odd" { separator := [';'] } oddDump = .ok oddFirewall := by decide +kernel
  have hbare : ofDump "bare" { blockByDefault := false } bareDump = .ok ⟨"bare", false, [], []⟩ := by
    decide +kernel
  have hfits : Packet.Fits { destinationPort := some 9000 } := by
    constructor <;> simp [UInt16.size]
  obtain ⟨hrules, -, husable, -, hsearch⟩ := ofDump_usable hodd hbare
  refine ⟨hodd, hbare, exact_correct.correctOnPackets, exact_decisive, hrules,
    husable.query exact_correct.correctOnPackets exact_decisive _ hfits, ?_⟩
  refine hsearch (fun _ => exact_correct.soundOnPackets) (fun _ => exact_decisive) _ ?_
  rintro n ⟨⟩
  decide

end Firewall

end FirewallPolicy
