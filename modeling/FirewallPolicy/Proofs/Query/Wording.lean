import FirewallPolicy.Proofs.Dump.Record
import FirewallPolicy.Proofs.Query.Exact
import FirewallPolicy.Proofs.Text.Numeral

/-!
Requests and records are worded alike.

The words of a request and the cells of a record are read by different readers. A request takes "any" in
any case and a numeral as it stands; a record takes the word "Any" alone, lists, ranges and networks, and
trims. A text that both accept they take for the same: an open field for everything, a present one for its
one value (`Rule.Describes`).

Of the spellings of "any" a set takes one and refuses the others (`eq_all_of_isAny`). A numeral has no
comma in it and a dash only as its sign, so a cell of ports that is one is neither a list nor a range
(`describes_of_readNumber`). A protocol is looked up by the same test on both sides.

Proved: `record_of_request_describes_packet`, for all texts of the four fields, the rule is about exactly the
datagrams that the packet stands for. The fields of the packet fit then, and a query about it lists the rule
if the rule is enabled.
-/

namespace FirewallPolicy

open Text

/-! ## Rules for packets -/

section Fields

variable {q : Quantity}

/-- The set for a field of a packet: everything if it is open, else the one value. -/
def ValueSet.Describes (s : ValueSet q) : Option Int → Prop
  | none => s = .all
  | some n => ∃ r, Range.single q n = .ok r ∧ s = .ofRanges [r]

def Protocol.Describes (p : Protocol) : Option Int → Prop
  | none => p = .wildcard
  | some n => p.any = false ∧ p.number = n

theorem ValueSet.Describes.contains_iff {s : ValueSet q} {field : Option Int} (h : s.Describes field) (x : Nat) :
    s.Contains x ↔ ∀ n, field = some n → n = x := by
  cases field with
  | none =>
    obtain rfl := h
    simp [Contains, all]
  | some n =>
    obtain ⟨r, hr, rfl⟩ := h
    obtain ⟨hlow, hhigh⟩ := Range.eq_of_ofBounds hr
    have hone : r.Contains x ↔ n = x := by
      unfold Range.Contains
      omega
    simpa [Contains, ofRanges] using hone

theorem ValueSet.Describes.le_maximum {s : ValueSet q} {n : Int} (h : s.Describes (some n)) :
    0 ≤ n ∧ n ≤ q.maximum := by
  obtain ⟨r, hr, -⟩ := h
  obtain ⟨hlow, -⟩ := Range.eq_of_ofBounds hr
  have hle := r.low_le
  omega

theorem Protocol.Describes.matches_iff {p : Protocol} {field : Option Int} (h : p.Describes field) (x : Nat) :
    p.Matches x ↔ ∀ n, field = some n → n = x := by
  cases field with
  | none =>
    obtain rfl := h
    simp [Matches, wildcard]
  | some n =>
    obtain ⟨hany, rfl⟩ := h
    simp [Matches, hany]

end Fields

structure Rule.Describes (r : Rule) (p : Packet) : Prop where
  remoteAddresses : r.remoteAddresses.Describes (p.sourceAddress.map fun a => (a.value : Int))
  remotePorts : r.remotePorts.Describes p.sourcePort
  localPorts : r.localPorts.Describes p.destinationPort
  protocol : r.protocol.Describes p.protocol

namespace Rule.Describes

variable {r : Rule} {p : Packet}

/-- A rule that describes a packet is about the datagrams that the packet stands for. -/
theorem matches_iff_covers (h : r.Describes p) (d : Datagram) : r.Matches d ↔ p.Covers d := by
  have haddress : (∀ n : Int, p.sourceAddress.map (fun a => (a.value : Int)) = some n → n = d.sourceAddress) ↔
      ∀ a, p.sourceAddress = some a → a.value = d.sourceAddress := by
    cases p.sourceAddress with
    | none => simp
    | some a =>
      simp only [Option.map_some, Option.some.injEq, forall_eq']
      omega
  unfold Rule.Matches Packet.Covers
  rw [h.remoteAddresses.contains_iff, h.remotePorts.contains_iff, h.localPorts.contains_iff,
    h.protocol.matches_iff, haddress]

theorem fits (h : r.Describes p) : p.Fits where
  sourcePort n hn := by
    have hport := (hn ▸ h.remotePorts : r.remotePorts.Describes (some n)).le_maximum
    have hmax : Quantity.port.maximum + 1 = UInt16.size := by decide
    omega
  destinationPort n hn := by
    have hport := (hn ▸ h.localPorts : r.localPorts.Describes (some n)).le_maximum
    have hmax : Quantity.port.maximum + 1 = UInt16.size := by decide
    omega
  protocol n hn := by
    obtain ⟨hany, hnumber⟩ := (hn ▸ h.protocol : r.protocol.Describes (some n))
    have hmax : Quantity.protocol.maximum + 1 = UInt8.size := by decide
    rcases r.protocol.fits with hwildcard | hfits
    · rw [hany] at hwildcard
      cases hwildcard
    · omega

end Rule.Describes

/-! ## The word "any" -/

namespace Text

def anySpellings : List (List Char) :=
  ["any", "anY", "aNy", "aNY", "Any", "AnY", "ANy", "ANY"].map String.toList

theorem eq_of_toLower_eq {c letter : Char} (h : c.toLower = letter) :
    c = letter ∨ c = Char.ofNat (letter.toNat - 32) := by
  unfold Char.toLower at h
  split at h
  · rename_i hcapital
    have hle : c.toNat ≤ 90 := hcapital.2
    have hnat : letter.toNat = c.toNat + 32 := by
      rw [← h]
      show (c.toNat + 32) % 4294967296 = c.toNat + 32
      omega
    rw [hnat, Nat.add_sub_cancel, Char.ofNat_toNat]
    exact Or.inr rfl
  · exact Or.inl h

theorem mem_anySpellings_of_isAny {s : List Char} (h : isAny s = true) : trim s ∈ anySpellings := by
  have hletters : (trim s).map Char.toLower = ['a', 'n', 'y'] := beq_iff_eq.mp h
  obtain ⟨a, rest, htrim, ha, hrest⟩ := List.map_eq_cons_iff.mp hletters
  obtain ⟨n, rest, rfl, hn, hrest⟩ := List.map_eq_cons_iff.mp hrest
  obtain ⟨y, rest, rfl, hy, hrest⟩ := List.map_eq_cons_iff.mp hrest
  obtain rfl := List.map_eq_nil_iff.mp hrest
  rw [htrim]
  rcases eq_of_toLower_eq ha with rfl | rfl <;> rcases eq_of_toLower_eq hn with rfl | rfl <;>
    rcases eq_of_toLower_eq hy with rfl | rfl <;> decide

theorem isAny_trim (s : List Char) : isAny (trim s) = isAny s := by
  unfold isAny
  rw [trim_trim]

end Text

namespace Dump

/-- No spelling of "any" but one is accepted for a set, and that one is everything. -/
theorem eq_all_of_isAny {text : List Char} (h : isAny text = true) :
    (∀ s, readAddresses text = .ok s → s = .all) ∧ ∀ s, readPorts text = .ok s → s = .all := by
  have haddresses : ∀ spelling ∈ anySpellings, ∀ s ∈ (readAddresses spelling).toOption, s = .all := by
    decide +kernel
  have hports : ∀ spelling ∈ anySpellings, ∀ s ∈ (readPorts spelling).toOption, s = .all := by
    decide +kernel
  have hmem := mem_anySpellings_of_isAny h
  constructor
  · intro s hs
    rw [← readAddresses_eq_of_trim_eq (trim_trim text)] at hs
    exact haddresses _ hmem s (by rw [hs]; rfl)
  · intro s hs
    rw [← readPorts_eq_of_trim_eq (trim_trim text)] at hs
    exact hports _ hmem s (by rw [hs]; rfl)

/-! ## Addresses -/

theorem readAddresses_of_readAddress {text : List Char} {a : Address} (h : readAddress text = .ok a) :
    readAddresses text = .ok (.ofRanges [Range.ofAddress a]) := by
  obtain ⟨b, htrim, hvalue⟩ := spellsAddress_of_readAddress h
  have hab : b = a := by
    cases a
    cases b
    cases hvalue
    rfl
  subst hab
  have htext : (ValueSet.ofRanges [Range.ofAddress b]).text.toList = b.text.toList := by
    rw [ValueSet.toList_text_ofRanges]
    simp [Range.text, Range.ofAddress, Range.ofAddresses, Quantity.numberText]
  have hread := readAddresses_text (s := .ofRanges [Range.ofAddress b]) (Or.inr ⟨_, by simp, rfl⟩)
  rw [htext] at hread
  rw [← hread]
  apply readAddresses_eq_of_trim_eq
  rw [htrim, b.trim_text]

/-! ## Ports -/

/-- A text without commas is a list of one entry. -/
theorem entries_of_comma_not_mem {text : List Char} (hcomma : ',' ∉ text) (hne : trim text ≠ []) :
    entries text = [trim text] := by
  have hsplit : split [','] ([','].intercalate [text]) = [text] :=
    split_join (by simpa using hcomma) (by simp)
  rw [List.intercalate_singleton] at hsplit
  unfold entries
  rw [hsplit]
  simpa using hne

/-- An entry that is a numeral is no range of two numbers: its only dash is the sign, and nothing is read
in front of that. -/
theorem readPortRange_of_read {text : List Char} {n : Int} (hn : Numeral.read text = .ok n) {r : Range .port}
    (hr : readPortRange (trim text) = .ok r) : Range.single .port n = .ok r := by
  unfold readPortRange at hr
  split at hr
  · rename_i low high hcut
    obtain ⟨hentry, -⟩ := eq_append_of_splitOnce hcut
    have hdash : '-' ∈ trim text := by
      rw [hentry]
      exact List.mem_append_right low List.mem_cons_self
    obtain ⟨run, hrun⟩ := Numeral.eq_cons_of_dash_mem_trim hn hdash
    have hsign : splitOnce '-' (trim text) = some ([], run) := by
      rw [hrun]
      exact splitOnce_append List.not_mem_nil run
    rw [hsign] at hcut
    cases hcut
    cases hr
  · have hnumber : readNumber (trim text) = .ok n := by
      rw [readNumber, Numeral.read_trim hn]
      rfl
    rw [hnumber] at hr
    exact hr

theorem describes_of_readNumber {text : List Char} (hany : isAny text = false) {n : Int}
    (hn : readNumber text = .ok n) {s : ValueSet .port} (hs : readPorts text = .ok s) :
    s.Describes (some n) := by
  have hread := read_of_readNumber hn
  have hword : trim text ≠ anyWord := by
    intro heq
    rw [← isAny_trim, heq] at hany
    cases hany
  unfold readPorts at hs
  simp only [if_neg hword] at hs
  split at hs
  · cases hs
  rename_i hne
  split at hs
  · cases hs
  have hentries : entries (trim text) = [trim text] := by
    have hone := entries_of_comma_not_mem (Numeral.comma_not_mem_trim hread)
    rw [trim_trim] at hone
    exact hone (by simpa using hne)
  rw [hentries] at hs
  obtain ⟨ranges, hranges, hs⟩ := exists_of_bind_eq_ok hs
  obtain ⟨r, rest, hr, hrest, rfl⟩ := List.forall₂_cons_left_iff.mp (mapM_eq_ok_iff.mp hranges)
  obtain rfl := List.forall₂_nil_left_iff.mp hrest
  exact ⟨r, readPortRange_of_read hread hr, (Except.ok.inj hs).symm⟩

end Dump

/-! ## Words and cells -/

namespace Query

/-- A word leaves its field open if it is "any", and gives it the value that is read otherwise. -/
theorem readWord_eq_ok {α : Type} {read : List Char → Except Invalid α} {word : List Char} {field : Option α}
    (h : readWord read (some word) = .ok field) :
    (isAny word = true ∧ field = none) ∨ (isAny word = false ∧ ∃ x, read word = .ok x ∧ field = some x) := by
  simp only [readWord] at h
  by_cases hany : isAny word = true
  · rw [if_pos hany] at h
    exact Or.inl ⟨hany, (Except.ok.inj h).symm⟩
  · rw [if_neg hany] at h
    refine Or.inr ⟨by simpa using hany, ?_⟩
    cases hread : read word with
    | error cause =>
      rw [hread] at h
      cases h
    | ok x =>
      rw [hread] at h
      exact ⟨x, rfl, (Except.ok.inj h).symm⟩

variable {text : List Char}

theorem addresses_describe {field : Option Address} (hfield : readWord Dump.readAddress (some text) = .ok field)
    {s : ValueSet .address} (hs : Dump.readAddresses text = .ok s) :
    s.Describes (field.map fun a => (a.value : Int)) := by
  rcases readWord_eq_ok hfield with ⟨hany, rfl⟩ | ⟨-, a, ha, rfl⟩
  · exact (Dump.eq_all_of_isAny hany).1 s hs
  · rw [Dump.readAddresses_of_readAddress ha] at hs
    cases hs
    exact ⟨_, Dump.ofBounds_eq (Range.ofAddress a), rfl⟩

theorem ports_describe {field : Option Int} (hfield : readWord Dump.readNumber (some text) = .ok field)
    {s : ValueSet .port} (hs : Dump.readPorts text = .ok s) : s.Describes field := by
  rcases readWord_eq_ok hfield with ⟨hany, rfl⟩ | ⟨hany, n, hn, rfl⟩
  · exact (Dump.eq_all_of_isAny hany).2 s hs
  · exact Dump.describes_of_readNumber hany hn hs

theorem protocol_describes {field : Option Int} (hfield : readWord readProtocolWord (some text) = .ok field)
    {p : Protocol} (hp : Protocol.read text = .ok p) : p.Describes field := by
  have hnumber : ∀ {n : Int}, Protocol.ofNumber false n = .ok p → p.Describes (some n) := by
    intro n hn
    unfold Protocol.ofNumber at hn
    split at hn
    · cases hn
      exact ⟨rfl, rfl⟩
    · cases hn
  have hname : Protocol.numberOf? (trim text) = Protocol.numberOf? text := by
    unfold Protocol.numberOf?
    rw [trim_trim]
  unfold Protocol.read at hp
  simp only [isAny_trim, hname] at hp
  rcases readWord_eq_ok hfield with ⟨hany, rfl⟩ | ⟨hany, n, hn, rfl⟩
  · rw [if_pos hany] at hp
    exact (Except.ok.inj hp).symm
  · rw [if_neg (by simp [hany])] at hp
    unfold readProtocolWord at hn
    cases hknown : Protocol.numberOf? text with
    | some k =>
      simp only [hknown] at hn hp
      cases hn
      exact hnumber hp
    | none =>
      simp only [hknown] at hn hp
      rw [Numeral.read_trim (Dump.read_of_readNumber hn)] at hp
      exact hnumber hp

structure Words.InCells (words : Words) (header : Dump.Header) (cells : List (List Char)) : Prop where
  source : ∃ text, words.source = some text ∧ Dump.CellAt header cells .remoteAddress text
  sourcePort : ∃ text, words.sourcePort = some text ∧ Dump.CellAt header cells .remotePort text
  destinationPort : ∃ text, words.destinationPort = some text ∧ Dump.CellAt header cells .localPort text
  protocol : ∃ text, words.protocol = some text ∧ Dump.CellAt header cells .protocol text

/-- A word that stands in a column is what the cell of the column is read from. -/
theorem exists_word_of_cell {header : Dump.Header} {cells : List (List Char)} {column : Dump.Column}
    {word : Option (List Char)} (hword : ∃ text, word = some text ∧ Dump.CellAt header cells column text)
    {P : List Char → Prop} (hcell : ∃ text, Dump.CellAt header cells column text ∧ P text) :
    ∃ text, word = some text ∧ P text := by
  obtain ⟨text, hword, hsame⟩ := hword
  obtain ⟨text', hcell, hread⟩ := hcell
  obtain rfl := hcell.unique hsame
  exact ⟨text', hword, hread⟩

variable {words : Words} {p : Packet} {r : Rule} {header : Dump.Header}

/-- What both the request and the record say, they say of the same packets. -/
theorem describes_of_inCells {cells : List (List Char)} (hp : readPacket words = .ok p)
    (hr : r.ReadFrom header cells) (hwords : words.InCells header cells) : r.Describes p := by
  unfold readPacket at hp
  obtain ⟨protocol, hprotocol, hp⟩ := exists_of_bind_eq_ok hp
  obtain ⟨source, hsource, hp⟩ := exists_of_bind_eq_ok hp
  obtain ⟨sourcePort, hsourcePort, hp⟩ := exists_of_bind_eq_ok hp
  obtain ⟨destinationPort, hdestinationPort, hp⟩ := exists_of_bind_eq_ok hp
  cases hp
  refine ⟨?_, ?_, ?_, ?_⟩
  · obtain ⟨text, hword, hread⟩ := exists_word_of_cell hwords.source hr.remoteAddresses
    rw [hword] at hsource
    exact addresses_describe hsource hread
  · obtain ⟨text, hword, hread⟩ := exists_word_of_cell hwords.sourcePort hr.remotePorts
    rw [hword] at hsourcePort
    exact ports_describe hsourcePort hread
  · obtain ⟨text, hword, hread⟩ := exists_word_of_cell hwords.destinationPort hr.localPorts
    rw [hword] at hdestinationPort
    exact ports_describe hdestinationPort hread
  · obtain ⟨text, hword, hread⟩ := exists_word_of_cell hwords.protocol hr.protocol
    rw [hword] at hprotocol
    exact protocol_describes hprotocol hread

/-- If a request and a record are accepted and the record has the words of the request in its cells, the
rule is about exactly the datagrams that the packet stands for, field by field. The formulas of both are
built and agree on every datagram, and if the rule is enabled, a query about the packet lists it, whatever
other rules the firewall has. -/
theorem record_of_request_describes_packet {separator line : List Char} (hp : readPacket words = .ok p)
    (hr : Dump.readRecord header separator line = .ok r)
    (hwords : words.InCells header (split separator line)) :
    r.Describes p ∧ (∀ d, r.Matches d ↔ p.Covers d) ∧
      (∃ condition pattern, r.condition = .ok condition ∧ p.pattern = .ok pattern ∧
        ∀ d : Datagram, condition.eval d.assignment = pattern.eval d.assignment) ∧
      (r.enabled = true → ∀ (fw : Firewall) (solver : Solver), r ∈ fw.rules → solver.Correct → solver.Decisive →
        ∃ result, run solver fw p = .ok result ∧ r ∈ result.rules) := by
  have hdescribes := describes_of_inCells hp (Dump.ruleOfCells_eq_ok_iff.mp hr) hwords
  have hmatches := hdescribes.matches_iff_covers
  have hcovers := p.covers_datagram_iff.mpr hdescribes.fits
  refine ⟨hdescribes, hmatches, ?_, ?_⟩
  · obtain ⟨condition, hcondition, hmeans⟩ := r.condition_means
    obtain ⟨pattern, hpattern, hmeans'⟩ := Packet.pattern_means hcovers
    refine ⟨condition, pattern, hcondition, hpattern, fun d => ?_⟩
    rw [Bool.eq_iff_iff, hmeans.holds_iff, hmeans'.holds_iff]
    exact hmatches d
  · intro henabled fw solver hmem hsolver hdecisive
    refine ⟨_, run_eq hsolver hdecisive fw hcovers, ?_⟩
    exact Firewall.mem_matching.mpr ⟨hmem, henabled, (hmatches p.datagram).mpr hcovers⟩

def pingWords : Words where
  source := some "10.1.2.3 ".toList
  sourcePort := some "Any".toList
  destinationPort := some " +5_900".toList
  protocol := some "icmpV6".toList

/-- A record with the same words in its cells. -/
def pingLine : List Char := "ping;Yes;Allow; +5_900;10.1.2.3 ;Any;icmpV6".toList

def pingRule : Rule where
  name := "ping"
  remoteAddresses := .ofRanges [⟨167838211, 167838211, by decide, by decide⟩]
  localPorts := .ofRanges [⟨5900, 5900, by decide, by decide⟩]
  protocol := ⟨false, 58, by decide⟩

/-- The request and the record are accepted, and a query lists the rule behind another one. -/
theorem ping_record_describes_packet :
    ∃ p, readPacket pingWords = .ok p ∧
      Dump.readRecord ⟨Dump.requiredTitles⟩ [';'] pingLine = .ok pingRule ∧
      pingWords.InCells ⟨Dump.requiredTitles⟩ (split [';'] pingLine) ∧
      pingRule.Describes p ∧ (∀ d, pingRule.Matches d ↔ p.Covers d) ∧
      ∃ result, run .exact { rules := [{ name := "other" }, pingRule] } p = .ok result ∧
        pingRule ∈ result.rules := by
  have hp : readPacket pingWords = .ok ⟨some ⟨167838211, by decide⟩, none, some 5900, some 58⟩ := by
    decide +kernel
  have hr : Dump.readRecord ⟨Dump.requiredTitles⟩ [';'] pingLine = .ok pingRule := by decide +kernel
  have hcells : split [';'] pingLine =
      ["ping", "Yes", "Allow", " +5_900", "10.1.2.3 ", "Any", "icmpV6"].map String.toList := by
    decide +kernel
  have hwords : pingWords.InCells ⟨Dump.requiredTitles⟩ (split [';'] pingLine) := by
    rw [hcells]
    refine ⟨⟨_, rfl, ?_⟩, ⟨_, rfl, ?_⟩, ⟨_, rfl, ?_⟩, ⟨_, rfl, ?_⟩⟩ <;> rw [← Dump.cell_eq_ok_iff] <;>
      decide +kernel
  obtain ⟨hdescribes, hmatches, -, hlisted⟩ := record_of_request_describes_packet hp hr hwords
  refine ⟨_, hp, hr, hwords, hdescribes, hmatches, ?_⟩
  exact hlisted rfl _ .exact (by simp) exact_correct exact_decisive

end Query

end FirewallPolicy
