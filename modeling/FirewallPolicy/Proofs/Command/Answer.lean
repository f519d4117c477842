import FirewallPolicy.Command.Query
import FirewallPolicy.Proofs.Firewall.File
import FirewallPolicy.Proofs.Query.Exact

/-!
The command that asks about one packet answers or refuses, and does nothing else.

What can go wrong comes from four sides: the file has an obstacle to being read, a word is no value, a value
does not fit its field, or the solver fails. A failure of the first three kinds is a refused value or a dump
that cannot be read, and both are reported; a correct solver that always answers does not fail.

Proved: `answers_or_refuses`, the command ends with 0 exactly if the file is a legible dump and the words are
a packet whose fields fit (`Answerable`), with 2 in every other case, and never by a failure that it does not
handle; its report is the decision on that packet and the rules that match it.
-/

namespace FirewallPolicy

open Text

namespace Command.Query

open FirewallPolicy.Query (readPacket)

/-- The bytes are a legible dump with the text, and the words are a packet whose fields fit. -/
structure Answerable (o : Options) (bytes : List UInt8) (text : List Char) (p : Packet) : Prop where
  legible : Dump.Legible o.separator.toList bytes text
  words : readPacket o.words = .ok p
  fits : p.Fits

def Refuses (outcome : Outcome) : Prop := ∃ failure events, outcome = refused failure events

section Perform

variable {file : String → Option (List UInt8)} {o : Options} {bytes : List UInt8}
  (hfile : file o.file = some bytes) (solver : Solver)

include hfile

theorem perform_of_obstacle {failure : Failure}
    (hread : Firewall.ofFile o.file.toList none ⟨o.blocks, o.separator.toList⟩ bytes = .error failure) :
    Refuses (perform file solver o) := by
  have hobstacle := (Firewall.ofFile_eq_error_iff _ _ _).mp hread
  rcases hobstacle.invalid_or_dump with ⟨cause, rfl⟩ | ⟨fault, rfl⟩ <;>
  · simp only [perform, hfile, Option.getD_some, hread]
    exact ⟨_, _, rfl⟩

variable {fw : Firewall}
  (hread : Firewall.ofFile o.file.toList none ⟨o.blocks, o.separator.toList⟩ bytes = .ok fw)

include hread

theorem perform_of_unread {cause : Invalid} (hwords : readPacket o.words = .error cause) :
    Refuses (perform file solver o) := by
  simp only [perform, hfile, Option.getD_some, hread, hwords]
  exact ⟨_, _, rfl⟩

theorem perform_of_misfit {p : Packet} (hwords : readPacket o.words = .ok p) (hmisfit : ¬p.Fits) :
    Refuses (perform file solver o) := by
  obtain ⟨v, n, hfirst⟩ := p.exists_firstMisfit_iff.mpr hmisfit
  simp only [perform, hfile, Option.getD_some, hread, hwords,
    FirewallPolicy.Query.run_of_firstMisfit solver fw hfirst]
  exact ⟨_, _, rfl⟩

theorem perform_of_fits {solver : Solver} (hsolver : solver.Correct) (hdecisive : solver.Decisive) {p : Packet}
    (hwords : readPacket o.words = .ok p) (hfits : p.Fits) :
    ∃ events, perform file solver o =
      conclude o events ⟨decide (fw.Admits p.datagram), fw.matching p.datagram⟩ := by
  have hrun := FirewallPolicy.Query.run_eq hsolver hdecisive fw (p.covers_datagram_iff.mpr hfits)
  simp only [perform, hfile, Option.getD_some, hread, hwords, hrun]
  exact ⟨_, rfl⟩

end Perform

/-- The command refuses what is not answerable, and concludes with the decision on what is. -/
theorem perform_cases {file : String → Option (List UInt8)} {o : Options} {bytes : List UInt8} {solver : Solver}
    (hfile : file o.file = some bytes) (hsolver : solver.Correct) (hdecisive : solver.Decisive) :
    ((¬∃ text p, Answerable o bytes text p) ∧ Refuses (perform file solver o)) ∨
    ∃ text p fw events, Answerable o bytes text p ∧
      Firewall.ofDump (String.ofList (Firewall.stem o.file.toList)) ⟨o.blocks, o.separator.toList⟩ text = .ok fw ∧
      perform file solver o = conclude o events ⟨decide (fw.Admits p.datagram), fw.matching p.datagram⟩ := by
  cases hread : Firewall.ofFile o.file.toList none ⟨o.blocks, o.separator.toList⟩ bytes with
  | error failure =>
    refine Or.inl ⟨?_, perform_of_obstacle hfile solver hread⟩
    rintro ⟨text, p, hanswerable⟩
    obtain ⟨fw, -, hok⟩ := Firewall.ofFile_of_legible o.file.toList none ⟨o.blocks, o.separator.toList⟩
      hanswerable.legible
    cases hread.symm.trans hok
  | ok fw =>
    obtain ⟨text, hlegible, hdump⟩ := (Firewall.ofFile_eq_ok_iff _ _ _).mp hread
    cases hwords : readPacket o.words with
    | error cause =>
      refine Or.inl ⟨?_, perform_of_unread hfile solver hread hwords⟩
      rintro ⟨text, p, hanswerable⟩
      cases hwords.symm.trans hanswerable.words
    | ok p =>
      by_cases hfits : p.Fits
      · obtain ⟨events, hperform⟩ := perform_of_fits hfile hread hsolver hdecisive hwords hfits
        exact Or.inr ⟨text, p, fw, events, ⟨hlegible, hwords, hfits⟩, hdump, hperform⟩
      · refine Or.inl ⟨?_, perform_of_misfit hfile solver hread hwords hfits⟩
        rintro ⟨text, other, hanswerable⟩
        cases hwords.symm.trans hanswerable.words
        exact hfits hanswerable.fits

/-- The command ends with 0 exactly if the bytes of the file are a legible dump and the words are a packet whose
fields fit, and with 2 in every other case. No failure is left unhandled. Where it answers and a report is asked
for, the report is the decision of the firewall that the dump describes on the packet, zero for its open fields,
and the enabled rules that match it, in their order. So ends every call that asks for these options. -/
theorem answers_or_refuses {file : String → Option (List UInt8)} {o : Options} {bytes : List UInt8} {solver : Solver}
    (hfile : file o.file = some bytes) (hsolver : solver.Correct) (hdecisive : solver.Decisive) :
    let outcome := perform file solver o
    (∀ environment words, asked environment file words = .ok o →
      run environment file solver words = outcome) ∧
    outcome.failure = none ∧
    (outcome.exitCode = 0 ↔ ∃ text p, Answerable o bytes text p) ∧
    (outcome.exitCode = 2 ↔ ¬∃ text p, Answerable o bytes text p) ∧
    (outcome.exitCode = 0 → o.json = true → ∃ text p fw, Answerable o bytes text p ∧
      Firewall.ofDump (String.ofList (Firewall.stem o.file.toList)) ⟨o.blocks, o.separator.toList⟩ text = .ok fw ∧
      outcome.report = some (.object
        [("allowed", .bool (decide (fw.Admits p.datagram))),
          ("matches", .list ((fw.rules.filter fun r => r.enabled && decide (r.Matches p.datagram)).map fun r =>
            .object [("name", .text r.name), ("action", .text r.action.word)]))])) := by
  intro outcome
  refine ⟨fun environment words hasked => by simp only [run, hasked, outcome], ?_⟩
  rcases perform_cases hfile hsolver hdecisive with
    ⟨hnot, failure, events, hrefused⟩ | ⟨text, p, fw, events, hanswerable, hdump, hconclude⟩
  · rw [show outcome = refused failure events from hrefused]
    exact ⟨rfl, iff_of_false (by simp [refused]) hnot, iff_of_true rfl hnot, fun hzero => by cases hzero⟩
  · rw [show outcome = conclude o events _ from hconclude]
    refine ⟨rfl, iff_of_true rfl ⟨text, p, hanswerable⟩,
      iff_of_false (by simp [conclude]) (not_not_intro ⟨text, p, hanswerable⟩), fun _ hjson => ?_⟩
    exact ⟨text, p, fw, hanswerable, hdump, if_pos hjson⟩

/-- A dump with a rule that lets pings through and a rule that is off. -/
def officeDump : List Char :=
  List.intercalate ['\n'] ((Dump.requiredTitles :: [["ping", "Yes", "Allow", "Any", "Any", "Any", "ICMPv4"],
    ["closed", "No", "Block", "Any", "192.168.0.0/16", "Any", "Any"]]).map fun cells =>
      List.intercalate [';'] (cells.map String.toList))

def officeFiles (path : String) : Option (List UInt8) :=
  if path = "rules/office.csv" then some (Utf8.encode officeDump) else none

def officeOptions : Options where
  file := "rules/office.csv"
  blocks := true
  words := ⟨some "192.168.0.1".toList, some "any".toList, some "any".toList, some "icmp".toList⟩
  separator := ";"
  json := true
  verbose := false

def office : Firewall where
  name := "office"
  rules := [
    { name := "ping", protocol := ⟨false, 1, by decide⟩ },
    { name := "closed", enabled := false, action := .block,
      remoteAddresses := .ofRanges [⟨3232235520, 3232301055, by decide, by decide⟩] }]

def officePacket : Packet where
  sourceAddress := some ⟨3232235521, by decide⟩
  protocol := some 1

def officeWords : List String :=
  ["--firewall", "rules/office.csv", "--src-address", "192.168.0.1", "--src-port", "any", "--dst-port",
    "any", "--protocol=icmp", "--separator", ";", "--json"]

/-- A ping is let through, by the one rule that is on. With no separator the same question is refused. -/
theorem office_answers_ping :
    officeFiles officeOptions.file = some (Utf8.encode officeDump) ∧
      Solver.exact.Correct ∧ Solver.exact.Decisive ∧
      (run (fun _ => none) officeFiles .exact officeWords).report = some (.object [("allowed", .bool true),
        ("matches", .list [.object [("name", .text "ping"), ("action", .text "Allow")]])]) ∧
      (perform officeFiles .exact { officeOptions with separator := "" }).exitCode = 2 := by
  have hfile : officeFiles officeOptions.file = some (Utf8.encode officeDump) := if_pos rfl
  have hasked : asked (fun _ => none) officeFiles officeWords = .ok officeOptions := by decide +kernel
  have hwords : readPacket officeOptions.words = .ok officePacket := by decide +kernel
  have hanswerable : Answerable officeOptions (Utf8.encode officeDump) officeDump officePacket := by
    refine ⟨⟨rfl, by decide +kernel, by decide +kernel, by decide +kernel⟩, hwords, ?_⟩
    constructor <;> simp [officePacket, UInt16.size, UInt8.size]
  obtain ⟨hrun, -, hzero, -, hreport⟩ := answers_or_refuses hfile exact_correct exact_decisive
  obtain ⟨-, -, -, htwo, -⟩ := answers_or_refuses (o := { officeOptions with separator := "" }) hfile
    exact_correct exact_decisive
  obtain ⟨text, p, fw, hother, hdump, hsays⟩ := hreport (hzero.mpr ⟨_, _, hanswerable⟩) rfl
  cases Utf8.encode_injective hother.legible.encoded
  cases hwords.symm.trans hother.words
  refine ⟨hfile, exact_correct, exact_decisive, ?_, htwo.mpr ?_⟩
  · have hoffice : Firewall.ofDump (String.ofList (Firewall.stem officeOptions.file.toList))
        ⟨officeOptions.blocks, officeOptions.separator.toList⟩ officeDump = .ok office := by decide +kernel
    cases hoffice.symm.trans hdump
    have hallowed : office.Admits officePacket.datagram := by decide +kernel
    have hmatching : office.matching officePacket.datagram = office.rules.take 1 := by decide +kernel
    rw [hrun _ _ hasked, hsays, decide_eq_true hallowed, ← Firewall.matching, hmatching]
    rfl
  · rintro ⟨text, p, hanswer⟩
    exact hanswer.legible.separated rfl

end Command.Query

end FirewallPolicy
