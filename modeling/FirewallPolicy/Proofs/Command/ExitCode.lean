import FirewallPolicy.Proofs.Command.Verdict
import FirewallPolicy.Proofs.Firewall.File
import FirewallPolicy.Proofs.Search.Stopping

/-!
What the exit code of the command that compares two firewalls says.

The code 2 is for files that cannot be compared, and the code 1 for a search that found something or was stopped.
The files are read one after the other, and the first obstacle is what the command fails for (`Unread`). It
reports dumps without a header and solvers that do not know, whatever else the solver and the clock do
(`Search.drain_stops`). It does not handle refused values: bytes that are no text and an empty separator end it
with an unhandled failure and the code 1 (`refused_values_look_like_a_difference`).

Proved: `exit_code_separates`, which of the codes 1 and 2 there is, and that no failure is left unhandled if both
files are texts and there is a separator.
-/

namespace FirewallPolicy.Command.Equivalence

open Text

/-! ## Reading both files -/

/-- What keeps two files from being compared: an obstacle to reading the first, or else to reading the second. -/
inductive Unread (o : Options) (firstBytes secondBytes : List UInt8) (failure : Failure) : Prop
  | first : Dump.Obstacle o.separator.toList firstBytes failure → Unread o firstBytes secondBytes failure
  | second {text : List Char} : Dump.Legible o.separator.toList firstBytes text →
      Dump.Obstacle o.separator.toList secondBytes failure → Unread o firstBytes secondBytes failure

theorem Unread.invalid_or_dump {o : Options} {firstBytes secondBytes : List UInt8} {failure : Failure}
    (h : Unread o firstBytes secondBytes failure) :
    (∃ cause, failure = .invalid cause) ∨ ∃ fault, failure = .dump fault := by
  cases h with
  | first hobstacle => exact hobstacle.invalid_or_dump
  | second _ hobstacle => exact hobstacle.invalid_or_dump

theorem Unread.eq_dump_of_texts {o : Options} {firstBytes secondBytes : List UInt8} {failure : Failure}
    (h : Unread o firstBytes secondBytes failure) {firstText secondText : List Char}
    (hfirst : firstBytes = Utf8.encode firstText) (hsecond : secondBytes = Utf8.encode secondText)
    (hseparator : o.separator.toList ≠ []) : ∃ fault, failure = .dump fault := by
  cases h with
  | first hobstacle => exact hobstacle.eq_dump_of_text hfirst hseparator
  | second _ hobstacle => exact hobstacle.eq_dump_of_text hsecond hseparator

structure Parsed (o : Options) (firstBytes secondBytes : List UInt8) (first second : Firewall) : Prop where
  first : ∃ text, Dump.Legible o.separator.toList firstBytes text ∧
    Firewall.ofDump "First" ⟨o.firstBlocks, o.separator.toList⟩ text = .ok first
  second : ∃ text, Dump.Legible o.separator.toList secondBytes text ∧
    Firewall.ofDump "Second" ⟨o.secondBlocks, o.separator.toList⟩ text = .ok second

section Read

variable {o : Options} {firstBytes secondBytes : List UInt8}

theorem readBoth_eq_error_iff {failure : Failure} :
    readBoth o firstBytes secondBytes = .error failure ↔ Unread o firstBytes secondBytes failure := by
  constructor
  · intro h
    rcases error_of_bind_eq_error h with hfirst | ⟨first, hfirst, h⟩
    · exact .first ((Firewall.ofFile_eq_error_iff _ _ _).mp hfirst)
    obtain ⟨text, hlegible, -⟩ := (Firewall.ofFile_eq_ok_iff _ _ _).mp hfirst
    rcases error_of_bind_eq_error h with hsecond | ⟨second, -, h⟩
    · exact .second hlegible ((Firewall.ofFile_eq_error_iff _ _ _).mp hsecond)
    · cases h
  · intro h
    cases h with
    | first hobstacle =>
      rw [readBoth, Firewall.ofFile_of_obstacle _ _ _ hobstacle]
      rfl
    | second hlegible hobstacle =>
      obtain ⟨first, -, hfirst⟩ := Firewall.ofFile_of_legible o.firstFile.toList (some "First")
        ⟨o.firstBlocks, o.separator.toList⟩ hlegible
      rw [readBoth, hfirst, ok_bind, Firewall.ofFile_of_obstacle _ _ _ hobstacle]
      rfl

theorem readBoth_eq_ok_iff {first second : Firewall} :
    readBoth o firstBytes secondBytes = .ok (first, second) ↔ Parsed o firstBytes secondBytes first second := by
  constructor
  · intro h
    obtain ⟨_, hfirst, h⟩ := exists_of_bind_eq_ok h
    obtain ⟨_, hsecond, h⟩ := exists_of_bind_eq_ok h
    cases h
    exact ⟨(Firewall.ofFile_eq_ok_iff _ _ _).mp hfirst, (Firewall.ofFile_eq_ok_iff _ _ _).mp hsecond⟩
  · rintro ⟨hfirst, hsecond⟩
    rw [readBoth, (Firewall.ofFile_eq_ok_iff _ (some "First") _).mpr hfirst, ok_bind,
      (Firewall.ofFile_eq_ok_iff _ (some "Second") _).mpr hsecond]
    rfl

end Read

/-! ## The exit code -/

/-- What the search between the firewalls does, with a solver for every query and a clock reading before it. -/
def Options.trace (o : Options) (solver : Nat → Solver) (elapsed : Nat → Nat) (first second : Firewall) :
    Search.Trace :=
  (Search.upTo o.count.toNat { firewalls := (first, second) }).drain solver fun n =>
    o.timeout.any (·.passed (elapsed n))

/-- How the command ended after a search: it reports that the solver did not know, or ends with 1 exactly if
something was found or time ran out, and with 0 otherwise. -/
structure Concludes (trace : Search.Trace) (outcome : Outcome) : Prop where
  failure_eq : outcome.failure = none
  exitCode_one_iff : outcome.exitCode = 1 ↔
    trace.failure? = none ∧ (trace.inconsistencies ≠ [] ∨ .deadlinePassed ∈ trace.map (·.2))
  exitCode_two_iff : outcome.exitCode = 2 ↔ ∃ reason, trace.failure? = some (.unknown reason)

theorem conclude_concludes {ready : Ready} {trace : Search.Trace} {found : List Inconsistency} {last : Search.Step}
    (hstopped : ready.search.Stopped trace found last) {k : Int} (hlimit : ready.search.limit = some k)
    (hroom : (ready.search.witnesses.length : Int) < k) : Concludes trace (conclude ready trace) := by
  rcases hstopped.failure?_cases with hfailure | ⟨reason, hfailure⟩
  · obtain ⟨hcode, -⟩ := conclude_of_no_failure ready hfailure
    refine ⟨by simp only [conclude, hfailure], ?_, ?_⟩
    · rw [← hstopped.not_exhausted_iff hlimit hroom hfailure, ← List.isEmpty_iff, ← Bool.and_eq_true, hcode,
        hfailure]
      split <;> simp_all
    · rw [hcode, hfailure]
      split <;> simp
  · have hrefused : (conclude ready trace).exitCode = 2 ∧ (conclude ready trace).failure = none := by
      simp [conclude, hfailure, failed, refused]
    exact ⟨hrefused.2, by simp [hrefused.1, hfailure], by simp [hrefused.1, hfailure]⟩

section Perform

variable {file : String → Option (List UInt8)} {o : Options} {firstBytes secondBytes : List UInt8}
  (hfirst : file o.firstFile = some firstBytes) (hsecond : file o.secondFile = some secondBytes)
  {solver : Nat → Solver} (elapsed : Nat → Nat)
include hfirst hsecond

theorem perform_of_unread {failure : Failure} (h : readBoth o firstBytes secondBytes = .error failure) :
    ∃ events, perform file solver elapsed o = failed o events failure := by
  have hread : readBoth o ((file o.firstFile).getD []) ((file o.secondFile).getD []) = .error failure := by
    rwa [hfirst, hsecond]
  obtain ⟨events, hprepare⟩ := prepare_of_error hread
  exact ⟨events, by rw [perform, hprepare]⟩

theorem perform_of_parsed (hcount : 0 < o.count) (hsolver : ∀ n, (solver n).SoundOnPackets)
    {first second : Firewall} (h : readBoth o firstBytes secondBytes = .ok (first, second)) :
    Concludes (o.trace solver elapsed first second) (perform file solver elapsed o) := by
  have hread : readBoth o ((file o.firstFile).getD []) ((file o.secondFile).getD []) = .ok (first, second) := by
    rwa [hfirst, hsecond]
  obtain ⟨events, hprepare⟩ := prepare_of_ok hcount hread
  obtain ⟨found, last, hstopped⟩ := Search.drain_stops first second o.count.toNat hsolver fun n =>
    o.timeout.any (·.passed (elapsed n))
  rw [perform, hprepare]
  refine conclude_concludes hstopped rfl ?_
  show (0 : Int) < o.count.toNat
  omega

end Perform

/-- The exit code separates firewalls that differ from files that cannot be compared, up to failures that are not
handled. Whether or not the solvers know and whatever the clock says:
- a failure is left unhandled exactly if a refused value keeps the files from being read;
- the command ends with 1 exactly if that is so, or if both files were read and the search found an inconsistency
  or ran out of time;
- it ends with 2 exactly if a fault of a dump keeps the files from being read, or a solver did not know;
- if both files are texts and there is a separator, no failure is left unhandled. -/
theorem exit_code_separates {file : String → Option (List UInt8)} {o : Options} {firstBytes secondBytes : List UInt8}
    (hfirst : file o.firstFile = some firstBytes) (hsecond : file o.secondFile = some secondBytes)
    (hcount : 0 < o.count) {solver : Nat → Solver} (hsolver : ∀ n, (solver n).SoundOnPackets) (elapsed : Nat → Nat) :
    let outcome := perform file solver elapsed o
    let trace := o.trace solver elapsed
    (∀ environment words, asked environment file words = .ok o →
      run environment file solver elapsed words = outcome) ∧
    (∀ failure, outcome.failure = some failure ↔
      Unread o firstBytes secondBytes failure ∧ ∃ cause, failure = .invalid cause) ∧
    (outcome.exitCode = 1 ↔ outcome.failure ≠ none ∨
      ∃ first second, Parsed o firstBytes secondBytes first second ∧ (trace first second).failure? = none ∧
        ((trace first second).inconsistencies ≠ [] ∨ .deadlinePassed ∈ (trace first second).map (·.2))) ∧
    (outcome.exitCode = 2 ↔ (∃ fault, Unread o firstBytes secondBytes (.dump fault)) ∨
      ∃ first second reason, Parsed o firstBytes secondBytes first second ∧
        (trace first second).failure? = some (.unknown reason)) ∧
    (∀ firstText secondText, firstBytes = Utf8.encode firstText → secondBytes = Utf8.encode secondText →
      o.separator.toList ≠ [] → outcome.failure = none) := by
  intro outcome trace
  refine ⟨fun environment words hasked => by simp only [run, hasked, outcome], ?_⟩
  simp only [← readBoth_eq_error_iff, ← readBoth_eq_ok_iff]
  cases hread : readBoth o firstBytes secondBytes with
  | error failure =>
    have hunread := readBoth_eq_error_iff.mp hread
    obtain ⟨events, houtcome⟩ := perform_of_unread hfirst hsecond elapsed hread
    rw [show outcome = failed o events failure from houtcome]
    rcases hunread.invalid_or_dump with ⟨cause, rfl⟩ | ⟨fault, rfl⟩
    · refine ⟨fun failure => ?_, iff_of_true rfl (Or.inl (by simp [failed, broken])),
        iff_of_false (by simp [failed, broken]) (by simp), ?_⟩
      · simp only [failed, broken, Option.some.injEq, Except.error.injEq]
        exact ⟨fun h => ⟨h, cause, h.symm⟩, And.left⟩
      · intro firstText secondText hfirstText hsecondText hseparator
        obtain ⟨fault, hfault⟩ := hunread.eq_dump_of_texts hfirstText hsecondText hseparator
        cases hfault
    · refine ⟨fun failure => ?_, iff_of_false (by simp [failed, refused]) (by simp [failed, refused]),
        iff_of_true rfl (Or.inl ⟨fault, rfl⟩), fun _ _ _ _ _ => rfl⟩
      refine iff_of_false (by simp [failed, refused]) ?_
      rintro ⟨h, cause, rfl⟩
      cases h
  | ok firewalls =>
    obtain ⟨first, second⟩ := firewalls
    obtain ⟨hfailure, hone, htwo⟩ := perform_of_parsed hfirst hsecond elapsed hcount hsolver hread
    refine ⟨fun failure => iff_of_false ?_ (by simp), hone.trans ?_, htwo.trans ?_, fun _ _ _ _ _ => hfailure⟩
    · intro hsome
      cases hfailure.symm.trans hsome
    · constructor
      · intro hstopped
        exact Or.inr ⟨first, second, rfl, hstopped⟩
      · rintro (hbroken | ⟨_, _, ⟨⟩, hstopped⟩)
        · exact absurd hfailure hbroken
        · exact hstopped
    · constructor
      · rintro ⟨reason, hunknown⟩
        exact Or.inr ⟨first, second, reason, rfl, hunknown⟩
      · rintro (⟨_, ⟨⟩⟩ | ⟨_, _, reason, ⟨⟩, hunknown⟩)
        exact ⟨reason, hunknown⟩

def ignorant : Solver := fun _ => .unknown "canceled"

theorem ignorant_correct : ignorant.Correct where
  unsat _ _ h := by cases h
  sat _ _ _ h := by cases h

/-- Two dumps that can be read, and a solver that does not know: the command ends with 2, and nothing is left
unhandled. -/
theorem an_unknown_answer_is_no_difference :
    dumpFiles compareOptions.firstFile = some (Utf8.encode webDump) ∧
      dumpFiles compareOptions.secondFile = some (Utf8.encode closedDump) ∧
      0 < compareOptions.count ∧ ignorant.SoundOnPackets ∧
      (run (fun _ => none) dumpFiles (fun _ => ignorant) (fun _ => 0) compareWords).exitCode = 2 ∧
      (perform dumpFiles (fun _ => ignorant) (fun _ => 0) compareOptions).failure = none ∧
      ∃ first second reason,
        Parsed compareOptions (Utf8.encode webDump) (Utf8.encode closedDump) first second ∧
        (compareOptions.trace (fun _ => ignorant) (fun _ => 0) first second).failure? = some (.unknown reason) := by
  have hfirst : dumpFiles compareOptions.firstFile = some (Utf8.encode webDump) := by decide +kernel
  have hsecond : dumpFiles compareOptions.secondFile = some (Utf8.encode closedDump) := by decide +kernel
  have hasked : asked (fun _ => none) dumpFiles compareWords = .ok compareOptions := by decide +kernel
  have hread : (readBoth compareOptions (Utf8.encode webDump) (Utf8.encode closedDump)).isOk = true := by
    decide +kernel
  have htwo : (perform dumpFiles (fun _ => ignorant) (fun _ => 0) compareOptions).exitCode = 2 := by
    decide +kernel
  obtain ⟨hrun, -, -, hiff, hhandled⟩ :=
    exit_code_separates hfirst hsecond (by decide) (fun _ => ignorant_correct.soundOnPackets) fun _ => 0
  refine ⟨hfirst, hsecond, by decide, ignorant_correct.soundOnPackets, ?_, hhandled _ _ rfl rfl (by decide), ?_⟩
  · rw [hrun _ _ hasked]
    exact htwo
  · rcases hiff.mp htwo with ⟨fault, hunread⟩ | hunknown
    · rw [readBoth_eq_error_iff.mpr hunread] at hread
      cases hread
    · exact hunknown

/-! ## Failures that are not handled -/

/-- One file with a dump of a header alone, and one with a byte that starts no character. -/
def strayFiles (path : String) : Option (List UInt8) :=
  if path = "rules" then some (Utf8.encode (dumpOf []))
  else if path = "stray" then some [0xff]
  else none

/-- Bytes that are no text cannot be compared, and without a separator no dump can be read, not even where a file is
compared with itself. In both cases the command ends with 1 and shows nothing. -/
theorem refused_values_look_like_a_difference :
    let undecodable := run (fun _ => none) strayFiles (fun _ => .exact) (fun _ => 0)
      ["--firewall1", "stray", "--firewall2", "rules", "--separator", ";"]
    let unseparated := run (fun _ => none) strayFiles (fun _ => .exact) (fun _ => 0)
      ["--firewall1", "rules", "--firewall2", "rules", "--separator", ""]
    (undecodable.exitCode = 1 ∧ undecodable.shown = [] ∧
      undecodable.failure.map (·.message) =
        some "'utf-8' codec can't decode byte 0xff in position 0: invalid start byte") ∧
    unseparated.exitCode = 1 ∧ unseparated.shown = [] ∧
      unseparated.failure = some (.invalid .emptySeparator) := by
  decide +kernel

end FirewallPolicy.Command.Equivalence
