import FirewallPolicy.Command.Equivalence
import FirewallPolicy.Proofs.Address.Dotted
import FirewallPolicy.Proofs.Dump.Record
import FirewallPolicy.Proofs.Search.Limit

/-!
What the command that compares two firewalls says is true.

What words ask for is at least one inconsistency (`count_pos_of_asked`). The command then goes through
three stages, each described by itself:
- a dump with a header gives a firewall, whatever its records are like (`readBoth_of_headed`), and one
  without is refused (`readBoth_of_not_headed`);
- the search ends with a verdict on the firewalls (`Search.Verdict`);
- what is put out is that verdict (`conclude_truthful`).

An item of the report is about the datagrams that have its values (`Lists`). As the text of an address
determines the address, these are the datagrams that the packet reported stands for
(`lists_inconsistencyReport`).

Proved: `run_truthful`, the exit code says whether the headers could be read and, if so, whether the
firewalls decide all datagrams alike, and the report says the same, what was found, and whether that is
all there is.
-/

namespace FirewallPolicy

open Text

/-! ## Dumps -/

namespace Dump

def Headed (separator text : List Char) : Prop :=
  ∃ header, Header.read requiredTitles separator ((lines text).headD []) = .ok header

instance (separator text : List Char) : Decidable (Headed separator text) :=
  match h : Header.read requiredTitles separator ((lines text).headD []) with
  | .ok header => isTrue ⟨header, h⟩
  | .error _ => isFalse (by rw [Headed, h]; simp)

/-- With a separator, a header that cannot be read is a fault of the dump. -/
theorem Header.eq_dump_of_read {required : List String} {separator line : List Char} {failure : Failure}
    (hseparator : separator ≠ []) (h : Header.read required separator line = .error failure) :
    ∃ fault, failure = .dump fault := by
  unfold Header.read at h
  split at h
  · cases h
    exact ⟨_, rfl⟩
  split at h
  · rename_i hempty
    exact absurd (List.isEmpty_iff.mp hempty) hseparator
  dsimp only at h
  split at h
  · cases h
  · cases h
    exact ⟨_, rfl⟩

end Dump

namespace Firewall

variable (name : String) (source : Source) {text : List Char}

theorem ofDump_of_headed (h : Dump.Headed source.separator text) :
    ∃ fw, ofDump name source text = .ok fw := by
  obtain ⟨header, hheader⟩ := h
  exact ⟨_, by simp only [ofDump, Dump.read, hheader, ok_bind]; rfl⟩

theorem ofDump_of_not_headed (hseparator : source.separator ≠ [])
    (h : ¬Dump.Headed source.separator text) : ∃ fault, ofDump name source text = .error (.dump fault) := by
  cases hread : Dump.Header.read Dump.requiredTitles source.separator ((lines text).headD []) with
  | ok header => exact absurd ⟨header, hread⟩ h
  | error failure =>
    obtain ⟨fault, rfl⟩ := Dump.Header.eq_dump_of_read hseparator hread
    refine ⟨fault, ?_⟩
    simp only [ofDump, Dump.read, hread]
    rfl

end Firewall

/-! ## Verdicts -/

namespace Search.Verdict

variable {first second : Firewall} {k : Nat} {found : List Inconsistency} {exhausted : Bool}

theorem exhausted_of_nil (h : Verdict first second k [] exhausted) (hk : 0 < k) : exhausted = true :=
  h.exhausted_iff.mpr hk

/-- With room for one, nothing is found exactly if the firewalls decide all datagrams alike. -/
theorem nil_iff (h : Verdict first second k found exhausted) (hk : 0 < k) :
    found = [] ↔ ∀ d, first.Admits d ↔ second.Admits d := by
  constructor
  · rintro rfl d
    by_contra hdiffer
    obtain ⟨i, hi, -⟩ := h.complete (h.exhausted_of_nil hk) d hdiffer
    cases hi
  · intro hagree
    rw [List.eq_nil_iff_forall_not_mem]
    intro i hi
    exact h.sound i hi _ (h.grounded i hi) (hagree _)

theorem equivalent_iff (h : Verdict first second k found exhausted) (hk : 0 < k) :
    (found.isEmpty && exhausted) = true ↔ ∀ d, first.Admits d ↔ second.Admits d := by
  rw [← h.nil_iff hk, Bool.and_eq_true, List.isEmpty_iff]
  constructor
  · exact And.left
  · rintro rfl
    exact ⟨rfl, h.exhausted_of_nil hk⟩

end Search.Verdict

/-! ## Reports -/

def Text.Json.member? (key : String) : Json → Option Json
  | .object members => members.lookup key
  | _ => none

namespace Datagram

def address (d : Datagram) : Address := ⟨d.sourceAddress, d.sourceAddress.isLt⟩

def members (d : Datagram) : List (String × Json) :=
  [("source_address", .text d.address.text), ("source_port", .number (d.sourcePort : Nat)),
    ("destination_port", .number (d.destinationPort : Nat)), ("protocol", .number (d.protocol : Nat))]

end Datagram

namespace Command.Equivalence

/-- The item of a report is about the datagram: a field is null or the datagram's. -/
def Lists (item : Json) (d : Datagram) : Prop :=
  ∀ m ∈ d.members, item.member? m.1 = some .null ∨ item.member? m.1 = some m.2

theorem optionalNumber_iff (x : Option Int) (m : Int) :
    (optionalNumber x = .null ∨ optionalNumber x = .number m) ↔ ∀ n, x = some n → n = m := by
  cases x <;> simp [optionalNumber]

theorem optionalText_iff (x : Option Address) (a : Address) :
    ((x.map fun a => Json.text a.text).getD .null = .null ∨
      (x.map fun a => Json.text a.text).getD .null = .text a.text) ↔ ∀ b, x = some b → b = a := by
  cases x <;> simp [Address.text_injective.eq_iff]

theorem lists_inconsistencyReport (i : Inconsistency) (d : Datagram) :
    Lists (inconsistencyReport i) d ↔ i.packet.Covers d := by
  have haddress : ∀ b : Address, b = d.address ↔ b.value = d.sourceAddress := by
    intro b
    rw [Address.mk.injEq]
    rfl
  simp [Lists, Datagram.members, inconsistencyReport, Json.member?, List.lookup_cons, optionalNumber_iff,
    optionalText_iff, haddress, Packet.Covers]

/-- What an outcome says of the firewalls is true: the exit code says whether they differ, and so does
the report if one is asked for. The report has at most as many items as asked for, none exactly if the
firewalls are equivalent, and says that the search was exhausted exactly if its items are about all
datagrams that the firewalls decide differently and are fewer than asked for. -/
structure Truthful (first second : Firewall) (o : Options) (outcome : Outcome) : Prop where
  exitCode_zero_iff : outcome.exitCode = 0 ↔ ∀ d, first.Admits d ↔ second.Admits d
  exitCode_one_iff : outcome.exitCode = 1 ↔ ∃ d, Firewall.Differ first second d
  report : o.json = true → ∃ (equivalent exhausted : Bool) (items : List Json),
    outcome.report = some (.object [("equivalent", .bool equivalent), ("exhausted", .bool exhausted),
      ("inconsistencies", .list items)]) ∧
    (equivalent = true ↔ outcome.exitCode = 0) ∧
    (items.length : Int) ≤ o.count ∧ (items = [] ↔ equivalent = true) ∧
    (∀ item ∈ items, ∀ d, Lists item d → Firewall.Differ first second d) ∧
    (exhausted = true ↔
      (∀ d, Firewall.Differ first second d → ∃ item ∈ items, Lists item d) ∧
        (items.length : Int) < o.count)

theorem Truthful.exitCode_ne_two {first second : Firewall} {o : Options} {outcome : Outcome}
    (h : Truthful first second o outcome) : outcome.exitCode ≠ 2 := by
  intro htwo
  have hagree : ¬∃ d, Firewall.Differ first second d := by simp [← h.exitCode_one_iff, htwo]
  have hdiffer : ¬∀ d, first.Admits d ↔ second.Admits d := by simp [← h.exitCode_zero_iff, htwo]
  exact hagree (not_forall.mp hdiffer)

/-! ## The stages of the command -/

theorem getD_pos_of_readCount {word : Option String} {count : Option Int}
    (h : optional readCount word = some count) : 0 < count.getD defaultCount := by
  cases word with
  | none =>
    cases h
    decide
  | some word =>
    cases hread : Count.read word.toList with
    | none => simp [optional, readCount, hread] at h
    | some n =>
      have hcount : count = some (n : Int) := by simpa [optional, readCount, hread] using h.symm
      rw [hcount]
      exact Int.natCast_pos.mpr (Count.pos_of_read hread)

theorem count_pos_of_asked {environment : String → Option String} {file : String → Option (List UInt8)}
    {words : List String} {o : Options} (h : asked environment file words = .ok o) : 0 < o.count := by
  obtain ⟨c, hread⟩ := exists_call_of_asked h
  simp only [readOptions, Option.bind_eq_bind, Option.bind_eq_some_iff] at hread
  obtain ⟨_, _, _, _, _, _, _, _, count, hcount, _, _, _, _, _, _, hread⟩ := hread
  cases hread
  exact getD_pos_of_readCount hcount

def Holds (file : String → Option (List UInt8)) (path : String) (text : List Char) : Prop :=
  (file path).bind (fun bytes => (Firewall.decodeFile bytes).toOption) = some text

instance (file : String → Option (List UInt8)) (path : String) (text : List Char) :
    Decidable (Holds file path text) :=
  inferInstanceAs (Decidable (_ = _))

theorem ofFile_of_holds {file : String → Option (List UInt8)} {path : String} {text : List Char}
    (h : Holds file path text) (name : String) (source : Firewall.Source) :
    Firewall.ofFile path.toList (some name) source ((file path).getD []) =
      Firewall.ofDump name source text := by
  obtain ⟨bytes, hfile, htext⟩ := Option.bind_eq_some_iff.mp h
  have hdecode : Firewall.decodeFile bytes = .ok text := by
    cases hd : Firewall.decodeFile bytes with
    | error failure => simp [hd, Except.toOption] at htext
    | ok decoded => simpa [hd, Except.toOption] using htext
  simp only [Firewall.ofFile, hfile, Option.getD_some, hdecode, ok_bind]

def readBoth (o : Options) (firstBytes secondBytes : List UInt8) : Except Failure (Firewall × Firewall) := do
  let first ← Firewall.ofFile o.firstFile.toList (some "First") ⟨o.firstBlocks, o.separator.toList⟩ firstBytes
  let second ← Firewall.ofFile o.secondFile.toList (some "Second") ⟨o.secondBlocks, o.separator.toList⟩ secondBytes
  return (first, second)

section Prepare

variable {file : String → Option (List UInt8)} {o : Options}

theorem prepare_of_error {failure : Failure}
    (h : readBoth o ((file o.firstFile).getD []) ((file o.secondFile).getD []) = .error failure) :
    ∃ events, prepare file o = .error (failed o events failure) := by
  rcases error_of_bind_eq_error h with hfirst | ⟨first, hfirst, h⟩
  · simp only [prepare, hfirst]
    exact ⟨_, rfl⟩
  rcases error_of_bind_eq_error h with hsecond | ⟨second, -, h⟩
  · simp only [prepare, hfirst, hsecond]
    exact ⟨_, rfl⟩
  · cases h

theorem prepare_of_ok (hcount : 0 < o.count) {first second : Firewall}
    (h : readBoth o ((file o.firstFile).getD []) ((file o.secondFile).getD []) = .ok (first, second)) :
    ∃ events, prepare file o =
      .ok ⟨o, Search.upTo o.count.toNat { firewalls := (first, second) }, events⟩ := by
  have hstart : Search.start first second (some o.count) =
      .ok (Search.upTo o.count.toNat { firewalls := (first, second) }) := by
    rw [← Search.start_natCast, Int.toNat_of_nonneg hcount.le]
  obtain ⟨_, hfirst, h⟩ := exists_of_bind_eq_ok h
  obtain ⟨_, hsecond, h⟩ := exists_of_bind_eq_ok h
  cases h
  simp only [prepare, hfirst, hsecond, hstart]
  exact ⟨_, rfl⟩

variable {firstText secondText : List Char} (hfirst : Holds file o.firstFile firstText)
  (hsecond : Holds file o.secondFile secondText)
include hfirst hsecond

theorem readBoth_of_headed (hfirstHead : Dump.Headed o.separator.toList firstText)
    (hsecondHead : Dump.Headed o.separator.toList secondText) :
    ∃ first second,
      Firewall.ofDump "First" ⟨o.firstBlocks, o.separator.toList⟩ firstText = .ok first ∧
      Firewall.ofDump "Second" ⟨o.secondBlocks, o.separator.toList⟩ secondText = .ok second ∧
      readBoth o ((file o.firstFile).getD []) ((file o.secondFile).getD []) = .ok (first, second) := by
  obtain ⟨first, hfirstRead⟩ :=
    Firewall.ofDump_of_headed "First" ⟨o.firstBlocks, o.separator.toList⟩ hfirstHead
  obtain ⟨second, hsecondRead⟩ :=
    Firewall.ofDump_of_headed "Second" ⟨o.secondBlocks, o.separator.toList⟩ hsecondHead
  refine ⟨first, second, hfirstRead, hsecondRead, ?_⟩
  simp only [readBoth, ofFile_of_holds hfirst, hfirstRead, ofFile_of_holds hsecond, hsecondRead, ok_bind]
  rfl

theorem readBoth_of_not_headed (hseparator : o.separator.toList ≠ [])
    (h : ¬(Dump.Headed o.separator.toList firstText ∧ Dump.Headed o.separator.toList secondText)) :
    ∃ fault, readBoth o ((file o.firstFile).getD []) ((file o.secondFile).getD []) =
      .error (.dump fault) := by
  by_cases hfirstHead : Dump.Headed o.separator.toList firstText
  · obtain ⟨first, hfirstRead⟩ :=
      Firewall.ofDump_of_headed "First" ⟨o.firstBlocks, o.separator.toList⟩ hfirstHead
    obtain ⟨fault, hsecondRead⟩ := Firewall.ofDump_of_not_headed "Second"
      ⟨o.secondBlocks, o.separator.toList⟩ hseparator fun hsecondHead => h ⟨hfirstHead, hsecondHead⟩
    refine ⟨fault, ?_⟩
    simp only [readBoth, ofFile_of_holds hfirst, hfirstRead, ofFile_of_holds hsecond, hsecondRead, ok_bind]
    rfl
  · obtain ⟨fault, hfirstRead⟩ := Firewall.ofDump_of_not_headed "First"
      ⟨o.firstBlocks, o.separator.toList⟩ hseparator hfirstHead
    refine ⟨fault, ?_⟩
    simp only [readBoth, ofFile_of_holds hfirst, hfirstRead]
    rfl

end Prepare

/-- What is put out, if the search did not fail. -/
theorem conclude_of_no_failure (ready : Ready) {trace : Search.Trace} (h : trace.failure? = none) :
    let found := trace.inconsistencies
    let exhausted := (trace.last ready.search).exhausted
    let equivalent := found.isEmpty && exhausted
    ((conclude ready trace).exitCode = if equivalent then 0 else 1) ∧
      (ready.options.json = true →
        (conclude ready trace).report = some (report equivalent exhausted found)) := by
  simp only [conclude, h, true_and]
  exact fun hjson => if_pos hjson

theorem conclude_truthful (ready : Ready) {trace : Search.Trace} {first second : Firewall}
    (hcount : 0 < ready.options.count) (hfailure : trace.failure? = none)
    (hverdict : Search.Verdict first second ready.options.count.toNat trace.inconsistencies
      (trace.last ready.search).exhausted) :
    Truthful first second ready.options (conclude ready trace) := by
  have hroom : 0 < ready.options.count.toNat := by omega
  obtain ⟨hcode, hreport⟩ := conclude_of_no_failure ready hfailure
  generalize trace.inconsistencies = found at hcode hreport hverdict
  generalize (trace.last ready.search).exhausted = exhausted at hcode hreport hverdict
  have hequivalent := hverdict.equivalent_iff hroom
  have hlength := hverdict.length_le
  have hzero : (conclude ready trace).exitCode = 0 ↔ (found.isEmpty && exhausted) = true := by
    rw [hcode]
    cases found.isEmpty && exhausted <;> simp
  have hone : (conclude ready trace).exitCode = 1 ↔ ¬(found.isEmpty && exhausted) = true := by
    rw [hcode]
    cases found.isEmpty && exhausted <;> simp
  refine ⟨hzero.trans hequivalent, ?_, fun hjson => ?_⟩
  · rw [hone, hequivalent, not_forall]
    rfl
  · refine ⟨_, _, _, hreport hjson, hzero.symm, ?_, ?_, ?_, ?_, ?_⟩
    · rw [List.length_map]
      omega
    · rw [List.map_eq_nil_iff, hverdict.nil_iff hroom, hequivalent]
    · simpa [lists_inconsistencyReport] using hverdict.sound
    · intro hex
      have hfew := hverdict.exhausted_iff.mp hex
      rw [List.length_map]
      refine ⟨fun d hd => ?_, by omega⟩
      obtain ⟨i, hi, hcovers⟩ := hverdict.complete hex d hd
      exact ⟨_, List.mem_map_of_mem hi, (lists_inconsistencyReport i d).mpr hcovers⟩
    · rintro ⟨-, hfew⟩
      rw [List.length_map] at hfew
      exact hverdict.exhausted_iff.mpr (by omega)

/-- The command tells the truth. Of two files that can be decoded, with a separator, without a time
limit and with solvers that are correct on packets, it ends with 2 exactly if one of them has no header;
otherwise it tells whether the firewalls of the dumps differ. So ends every call that asks for these
options. -/
theorem run_truthful {file : String → Option (List UInt8)} {o : Options} (hcount : 0 < o.count)
    (htimeout : o.timeout = none) (hseparator : o.separator.toList ≠ [])
    {firstText secondText : List Char} (hfirst : Holds file o.firstFile firstText)
    (hsecond : Holds file o.secondFile secondText) {solver : Nat → Solver}
    (hsolver : ∀ n, (solver n).CorrectOnPackets) (hdecisive : ∀ n, (solver n).Decisive)
    (elapsed : Nat → Nat) :
    let outcome := perform file solver elapsed o
    (∀ environment words, asked environment file words = .ok o →
      run environment file solver elapsed words = outcome) ∧
    (outcome.exitCode = 2 ↔
      ¬(Dump.Headed o.separator.toList firstText ∧ Dump.Headed o.separator.toList secondText)) ∧
    (Dump.Headed o.separator.toList firstText → Dump.Headed o.separator.toList secondText →
      ∃ first second,
        Firewall.ofDump "First" ⟨o.firstBlocks, o.separator.toList⟩ firstText = .ok first ∧
        Firewall.ofDump "Second" ⟨o.secondBlocks, o.separator.toList⟩ secondText = .ok second ∧
        Truthful first second o outcome) := by
  refine ⟨fun environment words hasked => by simp only [run, hasked], ?_⟩
  simp only [perform]
  by_cases hheads : Dump.Headed o.separator.toList firstText ∧ Dump.Headed o.separator.toList secondText
  · obtain ⟨first, second, hfirstRead, hsecondRead, hread⟩ :=
      readBoth_of_headed hfirst hsecond hheads.1 hheads.2
    obtain ⟨events, hready⟩ := prepare_of_ok hcount hread
    -- Without a time limit the clock does not matter.
    have hintime : ∀ search n, Ready.expired ⟨o, search, events⟩ (elapsed n) = false := by
      simp [Ready.expired, htimeout]
    obtain ⟨hfailure, hverdict⟩ :=
      Search.drain_within_limit first second o.count.toNat hsolver hdecisive
    have htruthful := conclude_truthful
      ⟨o, Search.upTo o.count.toNat { firewalls := (first, second) }, events⟩ hcount hfailure hverdict
    simp only [hready, hintime]
    exact ⟨iff_of_false htruthful.exitCode_ne_two (not_not_intro hheads),
      fun _ _ => ⟨first, second, hfirstRead, hsecondRead, htruthful⟩⟩
  · obtain ⟨fault, hread⟩ := readBoth_of_not_headed hfirst hsecond hseparator hheads
    obtain ⟨events, hrefused⟩ := prepare_of_error hread
    rw [hrefused]
    exact ⟨iff_of_true rfl hheads, fun hfirstHead hsecondHead => absurd ⟨hfirstHead, hsecondHead⟩ hheads⟩

/-- The text of a dump with the given records and semicolons between the columns. -/
def dumpOf (records : List (List String)) : List Char :=
  List.intercalate ['\n'] ((Dump.requiredTitles :: records).map fun cells =>
    List.intercalate [';'] (cells.map String.toList))

def webDump : List Char := dumpOf [["web", "Yes", "Allow", "80", "Any", "Any", "TCP"]]

/-- A dump without a rule that can be read. -/
def closedDump : List Char := dumpOf [["web", "Yes", "Maybe", "80", "Any", "Any", "TCP"]]

def dumpFiles (path : String) : Option (List UInt8) :=
  if path = "web" then some (webDump.map Char.toUInt8)
  else if path = "closed" then some (closedDump.map Char.toUInt8)
  else none

def compareWords : List String :=
  ["--firewall1", "web", "--firewall2", "closed", "--inconsistency-count=1", "--separator", ";", "--json"]

def compareOptions : Options where
  firstFile := "web"
  secondFile := "closed"
  firstBlocks := true
  secondBlocks := true
  count := 1
  timeout := none
  separator := ";"
  json := true
  verbose := false

/-- The rule of one of the dumps cannot be read and is left out, so the firewalls differ on web requests.
Asked for one inconsistency, the command lists one. It does not say that this is all there is, although
it is. -/
theorem web_dump_differs_from_closed :
    let outcome := run (fun _ => none) dumpFiles (fun _ => .exact) (fun _ => 0) compareWords
    asked (fun _ => none) dumpFiles compareWords = .ok compareOptions ∧
      0 < compareOptions.count ∧ compareOptions.timeout = none ∧ compareOptions.separator.toList ≠ [] ∧
      Holds dumpFiles compareOptions.firstFile webDump ∧
      Holds dumpFiles compareOptions.secondFile closedDump ∧
      Solver.exact.CorrectOnPackets ∧ Solver.exact.Decisive ∧
      Dump.Headed [';'] webDump ∧ Dump.Headed [';'] closedDump ∧
      outcome.exitCode = 1 ∧
      ∃ item, outcome.report = some (.object [("equivalent", .bool false), ("exhausted", .bool false),
        ("inconsistencies", .list [item])]) := by
  intro outcome
  have hasked : asked (fun _ => none) dumpFiles compareWords = .ok compareOptions := by decide +kernel
  have hcount := count_pos_of_asked hasked
  have hseparator : compareOptions.separator.toList ≠ [] := by decide
  have hfirst : Holds dumpFiles compareOptions.firstFile webDump := by decide +kernel
  have hsecond : Holds dumpFiles compareOptions.secondFile closedDump := by decide +kernel
  have hfirstHead : Dump.Headed [';'] webDump := by decide +kernel
  have hsecondHead : Dump.Headed [';'] closedDump := by decide +kernel
  have hone : outcome.exitCode = 1 := by decide +kernel
  obtain ⟨hrun, -, htruthful⟩ := run_truthful hcount rfl hseparator hfirst hsecond
    (fun _ => exact_correct.correctOnPackets) (fun _ => exact_decisive) fun _ => 0
  rw [← hrun _ _ hasked] at htruthful
  obtain ⟨first, second, -, -, htrue⟩ := htruthful hfirstHead hsecondHead
  obtain ⟨equivalent, exhausted, items, hreport, hzero, hlength, hnil, -, hexhausted⟩ := htrue.report rfl
  have hequivalent : equivalent = false := by
    rw [Bool.eq_false_iff, ne_eq, hzero]
    exact fun hcode => by cases hone.symm.trans hcode
  have hsome : items ≠ [] := by simp [hnil, hequivalent]
  obtain ⟨item, rfl⟩ : ∃ item, items = [item] := by
    rw [← List.length_eq_one_iff]
    have hpos := List.length_pos_iff.mpr hsome
    have hle : (items.length : Int) ≤ 1 := hlength
    omega
  have hmore : exhausted = false := by
    rw [Bool.eq_false_iff, ne_eq, hexhausted]
    rintro ⟨-, hfew⟩
    exact Int.lt_irrefl 1 hfew
  rw [hequivalent, hmore] at hreport
  exact ⟨hasked, hcount, rfl, hseparator, hfirst, hsecond, exact_correct.correctOnPackets, exact_decisive,
    hfirstHead, hsecondHead, hone, item, hreport⟩

end Command.Equivalence

end FirewallPolicy
