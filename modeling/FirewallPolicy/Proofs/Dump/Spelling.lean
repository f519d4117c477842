import FirewallPolicy.Firewall.Load
import FirewallPolicy.Proofs.Address.Colon
import FirewallPolicy.Proofs.Dump.Cell

/-!
The rules of a dump have the numbers that are spelled in it.

What a record has to say for a rule to be read from it stands here beside the readers. An entry of a
list spells two bounds (`Bounds`), one number for both or two with a dash between them; an entry of
addresses may spell a network instead (`AddressEntry`). A cell spells everything or one range for each
of its entries (`SetCell`), a cell of protocols any or a number (`ProtocolCell`), and the cells of a
record those of a rule (`Rule.Spelled`).

Nothing is wrapped around, clipped or left out on the way: a number that does not fit its quantity is
the bound of no range, so no rule is read from a record that spells one.

Proved: `Firewall.recorded_of_ofDump`, every rule of a dump is spelled in one of its records.
-/

namespace FirewallPolicy

open Text

/-! ## What is spelled -/

namespace Dump

/-- The text is a numeral of the number, in digits of any script. -/
def SpellsNumber (text : List Char) (n : Nat) : Prop := Numeral.read text = .ok (n : Int)

def SpellsAddress (text : List Char) (n : Nat) : Prop :=
  ∃ a : Address, trim text = a.text.toList ∧ a.value = n

/-- The entry spells the bounds: one number for both, or two with a dash between them. -/
inductive Bounds (Spells : List Char → Nat → Prop) (entry : List Char) : Nat → Nat → Prop
  | one {n : Nat} : '-' ∉ entry → Spells entry n → Bounds Spells entry n n
  | two {left right : List Char} {low high : Nat} : entry = left ++ '-' :: right → '-' ∉ left →
      Spells left low → Spells right high → Bounds Spells entry low high

/-- The text spells a prefix length: in digits, or as an address with so many leading ones, or with
zeros where the ones would be. -/
inductive SpellsLength (text : List Char) (length : Nat) : Prop
  | digits : text ≠ [] → (∀ c ∈ text, c.isDigit = true) → Nat.ofDigitChars 10 text 0 = length →
      SpellsLength text length
  | netmask (mask : Address) : text = mask.text.toList → mask.value + Nat.pow 2 (32 - length) = UInt32.size →
      SpellsLength text length
  | hostmask (mask : Address) : text = mask.text.toList → mask.value + 1 = Nat.pow 2 (32 - length) →
      SpellsLength text length

inductive AddressEntry (entry : List Char) (r : Range .address) : Prop
  | bounds : '/' ∉ entry → Bounds SpellsAddress entry r.low r.high → AddressEntry entry r
  /-- The addresses of a network agree with the given one in the leading bits. -/
  | network (a : Address) (mask : List Char) (length : Nat) : entry = a.text.toList ++ '/' :: mask →
      SpellsLength mask length → length ≤ 32 →
      (∀ x, r.Contains x ↔ x / Nat.pow 2 (32 - length) = a.value / Nat.pow 2 (32 - length)) → AddressEntry entry r

def PortEntry (entry : List Char) (r : Range .port) : Prop := Bounds SpellsNumber entry r.low r.high

/-- The cell spells the set: everything, or one range for each entry. -/
inductive SetCell {q : Quantity} (Entry : List Char → Range q → Prop) (text : List Char) :
    ValueSet q → Prop
  | all : trim text = "Any".toList → SetCell Entry text .all
  | ranges {ranges : List (Range q)} : List.Forall₂ Entry (entries (trim text)) ranges →
      SetCell Entry text (.ofRanges ranges)

/-- The cell spells the protocol: any, or a name or numeral of its number. -/
inductive ProtocolCell (text : List Char) : Protocol → Prop
  | any : isAny (trim text) = true → ProtocolCell text .wildcard
  | number {p : Protocol} {n : Nat} :
      Protocol.numberOf? (trim text) = some n ∨ SpellsNumber (trim text) n →
      p.any = false → p.number = n → ProtocolCell text p

end Dump

structure Rule.Spelled (r : Rule) (header : Dump.Header) (cells : List (List Char)) : Prop where
  remoteAddresses : ∃ text, Dump.cell header cells .remoteAddress = .ok text ∧
    Dump.SetCell Dump.AddressEntry text r.remoteAddresses
  remotePorts : ∃ text, Dump.cell header cells .remotePort = .ok text ∧
    Dump.SetCell Dump.PortEntry text r.remotePorts
  localPorts : ∃ text, Dump.cell header cells .localPort = .ok text ∧
    Dump.SetCell Dump.PortEntry text r.localPorts
  protocol : ∃ text, Dump.cell header cells .protocol = .ok text ∧ Dump.ProtocolCell text r.protocol

/-! ## Networks -/

namespace Address

theorem pow_le_size (length : Nat) : Nat.pow 2 (32 - length) ≤ UInt32.size :=
  Nat.pow_le_pow_right (by decide) (Nat.sub_le 32 length)

theorem eq_of_lengthOfMask {mask length : Nat} (h : lengthOfMask mask = some length) :
    length ≤ 32 ∧ (mask + Nat.pow 2 (32 - length) = UInt32.size ∨ mask + 1 = Nat.pow 2 (32 - length)) := by
  have hle : ∀ {p : Nat → Bool}, (List.range 33).find? p = some length → length ≤ 32 := by
    intro p hfind
    have hmem := List.mem_range.mp (List.mem_of_find?_eq_some hfind)
    omega
  rw [lengthOfMask, Option.or_eq_some_iff] at h
  rcases h with h | ⟨-, h⟩
  · have hfound := List.find?_some h
    have hmask : UInt32.size - Nat.pow 2 (32 - length) = mask := beq_iff_eq.mp hfound
    refine ⟨hle h, Or.inl ?_⟩
    rw [← hmask]
    exact Nat.sub_add_cancel (pow_le_size length)
  · have hfound := List.find?_some h
    have hmask : Nat.pow 2 (32 - length) - 1 = mask := beq_iff_eq.mp hfound
    refine ⟨hle h, Or.inr ?_⟩
    rw [← hmask]
    exact Nat.sub_add_cancel (Nat.two_pow_pos _)

theorem spellsLength_of_readMask {text : List Char} {length : Nat} (h : readMask text = some length) :
    Dump.SpellsLength text length ∧ length ≤ 32 := by
  rw [readMask, Option.or_eq_some_iff] at h
  rcases h with h | ⟨-, h⟩
  · obtain ⟨hne, hdigits, -, hvalue, hle⟩ := readLength_eq_some_iff.mp h
    exact ⟨.digits hne hdigits hvalue, hle⟩
  · cases hmask : readDotted text with
    | error fault =>
      rw [hmask] at h
      cases h
    | ok mask =>
      rw [hmask] at h
      have htext := readDotted_eq_ok_iff.mp hmask
      obtain ⟨hle, hnet | hhost⟩ := eq_of_lengthOfMask h
      · exact ⟨.netmask mask htext hnet, hle⟩
      · exact ⟨.hostmask mask htext hhost, hle⟩

/-- A text with a slash is that of a network only if an address and a prefix length stand around it. -/
theorem eq_append_of_dottedNetwork? {text : List Char} (hslash : '/' ∈ text) {n : Network}
    (h : dottedNetwork? text = some n) :
    ∃ mask, text = n.address.text.toList ++ '/' :: mask ∧ readMask mask = some n.length := by
  have hjoin := join_split '/' text
  unfold dottedNetwork? at h
  split at h
  · -- The slash cuts the text in two at least.
    rename_i piece hpiece
    obtain ⟨left, right, rfl⟩ := List.append_of_mem hslash
    have hlength := congrArg List.length hpiece
    rw [split_singleton, List.splitOn_append_cons_self, List.length_append] at hlength
    have hleft := List.length_pos_iff.mpr (List.splitOn_ne_nil '/' left)
    have hright := List.length_pos_iff.mpr (List.splitOn_ne_nil '/' right)
    simp at hlength
    omega
  · rename_i address mask hpieces
    rw [hpieces] at hjoin
    cases haddress : readDotted address with
    | error fault =>
      rw [haddress] at h
      cases h
    | ok a =>
      cases hmask : readMask mask with
      | none =>
        rw [haddress, hmask] at h
        cases h
      | some length =>
        rw [haddress, hmask] at h
        cases h
        refine ⟨mask, ?_, hmask⟩
        rw [← hjoin, ← readDotted_eq_ok_iff.mp haddress]
        simp
  · cases h

end Address

/-! ## Ranges -/

namespace Range

variable {q : Quantity} {r : Range q}

theorem eq_of_ofBounds {low high : Int} (h : ofBounds q low high = .ok r) :
    (r.low : Int) = low ∧ (r.high : Int) = high := by
  have hcheck : ∀ {value : Int} {n : { n : Nat // n ≤ q.maximum }}, q.check value = .ok n →
      (n.1 : Int) = value := by
    intro value n hn
    unfold Quantity.check at hn
    split at hn
    · rename_i hfits
      cases hn
      exact Int.toNat_of_nonneg hfits.1
    · cases hn
  obtain ⟨l, hl, h⟩ := exists_of_bind_eq_ok h
  obtain ⟨u, hu, h⟩ := exists_of_bind_eq_ok h
  cases h
  exact ⟨hcheck hl, hcheck hu⟩

/-- The range of a network has the addresses that agree with its own in the leading bits. -/
theorem contains_ofNetwork {n : Address.Network} {r : Range .address} (h : ofNetwork n = .ok r) (x : Nat) :
    r.Contains x ↔ x / Nat.pow 2 (32 - n.length) = n.address.value / Nat.pow 2 (32 - n.length) := by
  obtain ⟨hlow, hhigh⟩ := eq_of_ofBounds h
  rw [Int.ofNat_inj] at hlow hhigh
  have hpos : 0 < Nat.pow 2 (32 - n.length) := Nat.two_pow_pos _
  have hfirst : n.address.value / Nat.pow 2 (32 - n.length) * Nat.pow 2 (32 - n.length) = n.first := by
    have hdiv := Nat.div_add_mod n.address.value (Nat.pow 2 (32 - n.length))
    show _ = n.address.value - n.address.value % Nat.pow 2 (32 - n.length)
    rw [Nat.mul_comm]
    omega
  have hlast : n.last = n.first + (Nat.pow 2 (32 - n.length) - 1) := rfl
  rw [Contains, hlow, hhigh, hlast, Nat.div_eq_iff hpos, hfirst]
  omega

end Range

/-! ## Cells -/

namespace Dump

theorem spellsAddress_of_readAddress {text : List Char} {a : Address} (h : readAddress text = .ok a) :
    SpellsAddress text a.value :=
  ⟨a, readAddress_eq_ok_iff.mp h, rfl⟩

theorem read_of_readNumber {text : List Char} {n : Int} (h : readNumber text = .ok n) :
    Numeral.read text = .ok n := by
  unfold readNumber Invalid.ofNumeral at h
  split at h
  · rename_i m hm
    cases h
    exact hm
  · cases h

theorem addressEntry_of_readNetwork {entry : List Char} (hslash : '/' ∈ entry) {r : Range .address}
    (h : readNetwork entry = .ok r) : AddressEntry entry r := by
  obtain ⟨n, hn, hrange⟩ := exists_of_bind_eq_ok h
  unfold Address.readNetwork at hn
  split at hn
  · rename_i m hm
    cases hn
    obtain ⟨mask, htext, hmask⟩ := Address.eq_append_of_dottedNetwork? hslash hm
    obtain ⟨hlength, hle⟩ := Address.spellsLength_of_readMask hmask
    exact .network n.address mask n.length htext hlength hle (Range.contains_ofNetwork hrange)
  · cases hn

theorem addressEntry_of_readAddressRange {entry : List Char} {r : Range .address}
    (h : readAddressRange entry = .ok r) : AddressEntry entry r := by
  unfold readAddressRange at h
  split at h
  · rename_i hslash
    exact addressEntry_of_readNetwork (List.contains_iff_mem.mp hslash) h
  rename_i hslash
  rw [List.contains_iff_mem] at hslash
  refine .bounds hslash ?_
  split at h
  · rename_i left right hcut
    obtain ⟨low, hlow, h⟩ := exists_of_bind_eq_ok h
    obtain ⟨high, hhigh, h⟩ := exists_of_bind_eq_ok h
    cases h
    obtain ⟨hentry, hleft⟩ := eq_append_of_splitOnce hcut
    exact .two hentry hleft (spellsAddress_of_readAddress hlow) (spellsAddress_of_readAddress hhigh)
  · rename_i hcut
    obtain ⟨a, ha, h⟩ := exists_of_bind_eq_ok h
    cases h
    exact .one (splitOnce_eq_none_iff.mp hcut) (spellsAddress_of_readAddress ha)

theorem portEntry_of_readPortRange {entry : List Char} {r : Range .port}
    (h : readPortRange entry = .ok r) : PortEntry entry r := by
  have hspells : ∀ {text : List Char} {n : Int} {k : Nat}, readNumber text = .ok n → (k : Int) = n →
      SpellsNumber text k := by
    rintro text n k hn rfl
    exact read_of_readNumber hn
  unfold readPortRange at h
  split at h
  · rename_i left right hcut
    obtain ⟨low, hlow, h⟩ := exists_of_bind_eq_ok h
    obtain ⟨high, hhigh, h⟩ := exists_of_bind_eq_ok h
    obtain ⟨hlow', hhigh'⟩ := Range.eq_of_ofBounds h
    obtain ⟨hentry, hleft⟩ := eq_append_of_splitOnce hcut
    exact .two hentry hleft (hspells hlow hlow') (hspells hhigh hhigh')
  · rename_i hcut
    obtain ⟨n, hn, h⟩ := exists_of_bind_eq_ok h
    obtain ⟨hlow, hhigh⟩ := Range.eq_of_ofBounds h
    have hsame : r.high = r.low := Int.ofNat_inj.mp (hhigh.trans hlow.symm)
    rw [PortEntry, hsame]
    exact .one (splitOnce_eq_none_iff.mp hcut) (hspells hn hlow)

theorem setCell_of_readAddresses {text : List Char} {s : ValueSet .address}
    (h : readAddresses text = .ok s) : SetCell AddressEntry text s := by
  unfold readAddresses at h
  simp only at h
  split at h
  · rename_i hany
    cases h
    exact .all hany
  · obtain ⟨ranges, hranges, h⟩ := exists_of_bind_eq_ok h
    cases h
    exact .ranges ((mapM_eq_ok_iff.mp hranges).imp fun _ _ => addressEntry_of_readAddressRange)

theorem setCell_of_readPorts {text : List Char} {s : ValueSet .port} (h : readPorts text = .ok s) :
    SetCell PortEntry text s := by
  unfold readPorts at h
  simp only at h
  split at h
  · cases h
  split at h
  · rename_i hany
    cases h
    exact .all hany
  split at h
  · cases h
  · obtain ⟨ranges, hranges, h⟩ := exists_of_bind_eq_ok h
    cases h
    exact .ranges ((mapM_eq_ok_iff.mp hranges).imp fun _ _ => portEntry_of_readPortRange)

theorem protocolCell_of_read {text : List Char} {p : Protocol} (h : Protocol.read text = .ok p) :
    ProtocolCell text p := by
  have hnumber : ∀ {n : Int}, Protocol.ofNumber false n = .ok p →
      p.any = false ∧ p.number = n ∧ 0 ≤ n := by
    intro n hn
    unfold Protocol.ofNumber at hn
    split at hn
    · rename_i hfits
      cases hn
      exact ⟨rfl, rfl, (hfits.resolve_left (by simp)).1⟩
    · cases hn
  unfold Protocol.read at h
  simp only at h
  split at h
  · rename_i hany
    cases h
    exact .any hany
  split at h
  · rename_i n hname
    obtain ⟨hone, heq, -⟩ := hnumber h
    exact .number (.inl hname) hone heq
  split at h
  · cases h
  · rename_i n hn
    obtain ⟨hone, heq, hpos⟩ := hnumber h
    obtain ⟨k, rfl⟩ := Int.eq_ofNat_of_zero_le hpos
    exact .number (.inr hn) hone heq

/-! ## Records -/

theorem eq_ok_of_ofCell {α : Type} {x : Except Invalid α} {a : α} (h : ofCell x = .ok a) : x = .ok a := by
  cases x with
  | error cause => cases h
  | ok b =>
    cases h
    rfl

theorem spelled_of_ruleOfCells {header : Header} {cells : List (List Char)} {r : Rule}
    (h : ruleOfCells header cells = .ok r) : r.Spelled header cells := by
  unfold ruleOfCells at h
  obtain ⟨_, -, h⟩ := exists_of_bind_eq_ok h
  obtain ⟨addressText, haddressText, h⟩ := exists_of_bind_eq_ok h
  obtain ⟨addresses, haddresses, h⟩ := exists_of_bind_eq_ok h
  obtain ⟨remoteText, hremoteText, h⟩ := exists_of_bind_eq_ok h
  obtain ⟨remotePorts, hremotePorts, h⟩ := exists_of_bind_eq_ok h
  obtain ⟨localText, hlocalText, h⟩ := exists_of_bind_eq_ok h
  obtain ⟨localPorts, hlocalPorts, h⟩ := exists_of_bind_eq_ok h
  obtain ⟨protocolText, hprotocolText, h⟩ := exists_of_bind_eq_ok h
  obtain ⟨protocol, hprotocol, h⟩ := exists_of_bind_eq_ok h
  obtain ⟨_, -, h⟩ := exists_of_bind_eq_ok h
  obtain ⟨_, -, h⟩ := exists_of_bind_eq_ok h
  obtain ⟨_, -, h⟩ := exists_of_bind_eq_ok h
  cases h
  exact ⟨⟨_, haddressText, setCell_of_readAddresses (eq_ok_of_ofCell haddresses)⟩,
    ⟨_, hremoteText, setCell_of_readPorts (eq_ok_of_ofCell hremotePorts)⟩,
    ⟨_, hlocalText, setCell_of_readPorts (eq_ok_of_ofCell hlocalPorts)⟩,
    ⟨_, hprotocolText, protocolCell_of_read (eq_ok_of_ofCell hprotocol)⟩⟩

theorem exists_line_of_mem_readRecords {header : Header} {separator : List Char} {n : Nat}
    {lines : List (List Char)} {r : Rule} (h : r ∈ (readRecords header separator n lines).rules) :
    ∃ line ∈ lines, readRecord header separator line = .ok r := by
  induction lines generalizing n with
  | nil => cases h
  | cons line rest ih =>
    have hlater : r ∈ (readRecords header separator (n + 1) rest).rules →
        ∃ line' ∈ line :: rest, readRecord header separator line' = .ok r := by
      intro hmem
      obtain ⟨line', hline', hread⟩ := ih hmem
      exact ⟨line', List.mem_cons_of_mem _ hline', hread⟩
    rw [readRecords] at h
    split at h
    · exact hlater h
    split at h
    · rename_i rule hrule
      rcases List.mem_cons.mp h with rfl | h
      · exact ⟨line, List.mem_cons_self, hrule⟩
      · exact hlater h
    · exact hlater h

end Dump

def Rule.Recorded (r : Rule) (separator text : List Char) : Prop :=
  ∃ header, Dump.Header.read Dump.requiredTitles separator ((lines text).headD []) = .ok header ∧
    ∃ line ∈ (lines text).tail, r.Spelled header (split separator line)

/-- Every rule of a dump is spelled in one of its records. -/
theorem Firewall.recorded_of_ofDump {name : String} {source : Source} {text : List Char} {fw : Firewall}
    (h : ofDump name source text = .ok fw) {r : Rule} (hr : r ∈ fw.rules) :
    r.Recorded source.separator text := by
  obtain ⟨contents, hcontents, h⟩ := exists_of_bind_eq_ok h
  obtain ⟨header, hheader, hrecords⟩ := exists_of_bind_eq_ok hcontents
  cases hrecords
  cases h
  obtain ⟨line, hline, hread⟩ := Dump.exists_line_of_mem_readRecords hr
  exact ⟨header, hheader, line, hline, Dump.spelled_of_ruleOfCells hread⟩

end FirewallPolicy
