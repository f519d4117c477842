import FirewallPolicy.Firewall.Load
import FirewallPolicy.Proofs.Dump.Recovery
import FirewallPolicy.Proofs.Text.Utf8

/-!
What is read from a file.

A file is decoded, its line ends are made uniform, and the text is read as a dump. Decoding undoes the
encoding of a text (`Utf8.decode_eq_ok_iff`), and as every way to end a line is known to `lines` anyway,
making the ends uniform changes no line (`lines_unifyLineEnds`). So a file is read as the text that its bytes
encode (`ofFile_encode`).

Bytes are not read for one of four reasons (`Obstacle`), the first that applies: they are no text, the
first line is missing or blank, there is no separator, or titles are missing. If there is none of them, the
file is legible (`Legible`) and makes a firewall (`ofFile_eq_error_iff`, `ofFile_eq_ok_iff`).

Proved: `file_reads_as_its_text`, for every text.
-/

namespace FirewallPolicy

open Text

/-! ## Line ends -/

theorem Text.lines_unifyLineEnds (text : List Char) : lines (unifyLineEnds text) = lines text := by
  fun_induction unifyLineEnds text with
  | case1 => rfl
  | case2 rest ih =>
    rw [lines.eq_def, lines, ← ih]
    rfl
  | case3 c rest hpair ih =>
    have hline := lines.eq_3 c rest hpair
    split
    · -- A carriage return that stands alone ends its line as a line feed does.
      rename_i hreturn
      subst hreturn
      rw [hline, ← ih, lines.eq_def]
      rfl
    · rename_i hother
      rw [hline, ← ih, lines.eq_3 _ _ fun _ hreturn => absurd hreturn hother]

/-- A dump is read line by line. -/
theorem Dump.read_unifyLineEnds (separator text : List Char) :
    read separator (unifyLineEnds text) = read separator text := by
  unfold read
  rw [lines_unifyLineEnds]

namespace Firewall

variable (path : List Char) (name : Option String) (source : Source)

theorem ofFile_encode (text : List Char) :
    ofFile path name source (Utf8.encode text) = ofDump (name.getD (String.ofList (stem path))) source text := by
  have hdecode : decodeFile (Utf8.encode text) = .ok (unifyLineEnds text) := by
    rw [decodeFile, Utf8.decode_eq_ok_iff.mpr rfl]
  rw [ofFile, hdecode, ok_bind]
  unfold ofDump
  rw [Dump.read_unifyLineEnds]

/-- A file that holds the encoding of a text is read as the text: the same firewall, warnings and the numbers
of their lines included, or the same failure. It has the name that is given, or the stem of the file. -/
theorem file_reads_as_its_text (text : String) :
    (∀ given, ofFile path (some given) source text.toUTF8.data.toList = ofDump given source text.toList) ∧
      ofFile path none source text.toUTF8.data.toList =
        ofDump (String.ofList (stem path)) source text.toList := by
  rw [Utf8.toUTF8_eq_encode]
  exact ⟨fun given => ofFile_encode path (some given) source _, ofFile_encode path none source _⟩

end Firewall

/-! ## Files that are read and files that are not -/

namespace Dump

def firstLine (text : List Char) : List Char := (lines text).headD []

structure Legible (separator : List Char) (bytes : List UInt8) (text : List Char) : Prop where
  encoded : bytes = Utf8.encode text
  separated : separator ≠ []
  headed : ¬Blank (firstLine text)
  complete : missingTitles separator (firstLine text) = []

inductive Obstacle (separator : List Char) (bytes : List UInt8) : Failure → Prop
  | undecodable {fault : Utf8.Error} : Utf8.decode bytes = .error fault →
      Obstacle separator bytes (.invalid (.undecodable fault))
  | unheaded {text : List Char} : bytes = Utf8.encode text → Blank (firstLine text) →
      Obstacle separator bytes (.dump .missingHeader)
  | unseparated {text : List Char} : bytes = Utf8.encode text → ¬Blank (firstLine text) → separator = [] →
      Obstacle separator bytes (.invalid .emptySeparator)
  | incomplete {text : List Char} : bytes = Utf8.encode text → ¬Blank (firstLine text) → separator ≠ [] →
      missingTitles separator (firstLine text) ≠ [] →
      Obstacle separator bytes (.dump (.missingColumns (missingTitles separator (firstLine text))))

theorem obstacle_or_legible (separator : List Char) (bytes : List UInt8) :
    (∃ failure, Obstacle separator bytes failure) ∨ ∃ text, Legible separator bytes text := by
  cases hdecode : Utf8.decode bytes with
  | error fault => exact Or.inl ⟨_, .undecodable hdecode⟩
  | ok text =>
    have hbytes := Utf8.decode_eq_ok_iff.mp hdecode
    by_cases hblank : Blank (firstLine text)
    · exact Or.inl ⟨_, .unheaded hbytes hblank⟩
    by_cases hseparator : separator = []
    · exact Or.inl ⟨_, .unseparated hbytes hblank hseparator⟩
    by_cases hmissing : missingTitles separator (firstLine text) = []
    · exact Or.inr ⟨text, hbytes, hseparator, hblank, hmissing⟩
    · exact Or.inl ⟨_, .incomplete hbytes hblank hseparator hmissing⟩

/-- What keeps a file from being read is a refused value or a fault of the dump. -/
theorem Obstacle.invalid_or_dump {separator : List Char} {bytes : List UInt8} {failure : Failure}
    (h : Obstacle separator bytes failure) :
    (∃ cause, failure = .invalid cause) ∨ ∃ fault, failure = .dump fault := by
  cases h with
  | undecodable _ => exact Or.inl ⟨_, rfl⟩
  | unheaded _ _ => exact Or.inr ⟨_, rfl⟩
  | unseparated _ _ _ => exact Or.inl ⟨_, rfl⟩
  | incomplete _ _ _ _ => exact Or.inr ⟨_, rfl⟩

/-- With a separator, what keeps a text from being read is a fault of the dump. -/
theorem Obstacle.eq_dump_of_text {separator : List Char} {bytes : List UInt8} {failure : Failure}
    (h : Obstacle separator bytes failure) {text : List Char} (hbytes : bytes = Utf8.encode text)
    (hseparator : separator ≠ []) : ∃ fault, failure = .dump fault := by
  cases h with
  | undecodable hdecode => cases hdecode.symm.trans (Utf8.decode_eq_ok_iff.mpr hbytes)
  | unheaded _ _ => exact ⟨_, rfl⟩
  | unseparated _ _ hempty => exact absurd hempty hseparator
  | incomplete _ _ _ _ => exact ⟨_, rfl⟩

end Dump

namespace Firewall

variable (path : List Char) (name : Option String) (source : Source)

/-- A dump makes a firewall if its first line is a header, and else fails as that line does. -/
theorem ofDump_eq (name : String) (text : List Char) :
    ofDump name source text =
      (Dump.Header.read Dump.requiredTitles source.separator (Dump.firstLine text)).map fun header =>
        let contents := Dump.readRecords header source.separator 2 (lines text).tail
        ⟨name, source.blockByDefault, contents.rules, contents.warnings⟩ := by
  simp only [ofDump, Dump.read, Dump.firstLine]
  cases Dump.Header.read Dump.requiredTitles source.separator ((lines text).headD []) <;> rfl

theorem ofFile_of_header {bytes : List UInt8} {text : List Char} (hbytes : bytes = Utf8.encode text)
    {failure : Failure}
    (hheader : Dump.Header.read Dump.requiredTitles source.separator (Dump.firstLine text) = .error failure) :
    ofFile path name source bytes = .error failure := by
  rw [hbytes, ofFile_encode, ofDump_eq, hheader]
  rfl

variable {bytes : List UInt8}

theorem ofFile_of_obstacle {failure : Failure} (h : Dump.Obstacle source.separator bytes failure) :
    ofFile path name source bytes = .error failure := by
  cases h with
  | undecodable hdecode =>
    rw [ofFile, decodeFile, hdecode]
    rfl
  | unheaded hbytes hblank =>
    exact ofFile_of_header path name source hbytes (if_pos (Dump.isEmpty_trim_iff.mpr hblank))
  | unseparated hbytes hblank hseparator =>
    refine ofFile_of_header path name source hbytes ?_
    rw [Dump.Header.read, if_neg fun hempty => hblank (Dump.isEmpty_trim_iff.mp hempty), hseparator]
    rfl
  | incomplete hbytes hblank hseparator hmissing =>
    refine ofFile_of_header path name source hbytes ?_
    rw [Dump.Header.read_eq hseparator, if_neg hblank, if_neg hmissing]

theorem ofFile_of_legible {text : List Char} (h : Dump.Legible source.separator bytes text) :
    ∃ fw, ofDump (name.getD (String.ofList (stem path))) source text = .ok fw ∧
      ofFile path name source bytes = .ok fw := by
  have hdump := ofDump_eq source (name.getD (String.ofList (stem path))) text
  rw [Dump.Header.read_eq h.separated, if_neg h.headed, if_pos h.complete] at hdump
  refine ⟨_, hdump, ?_⟩
  rw [h.encoded, ofFile_encode]
  exact hdump

theorem ofFile_eq_error_iff {failure : Failure} :
    ofFile path name source bytes = .error failure ↔ Dump.Obstacle source.separator bytes failure := by
  refine ⟨fun h => ?_, ofFile_of_obstacle path name source⟩
  rcases Dump.obstacle_or_legible source.separator bytes with ⟨other, hobstacle⟩ | ⟨text, hlegible⟩
  · cases h.symm.trans (ofFile_of_obstacle path name source hobstacle)
    exact hobstacle
  · obtain ⟨fw, -, hread⟩ := ofFile_of_legible path name source hlegible
    cases h.symm.trans hread

/-- A file is read exactly if it is legible, and then it makes the firewall of its text. -/
theorem ofFile_eq_ok_iff {fw : Firewall} :
    ofFile path name source bytes = .ok fw ↔
      ∃ text, Dump.Legible source.separator bytes text ∧
        ofDump (name.getD (String.ofList (stem path))) source text = .ok fw := by
  constructor
  · intro h
    rcases Dump.obstacle_or_legible source.separator bytes with ⟨other, hobstacle⟩ | ⟨text, hlegible⟩
    · cases h.symm.trans (ofFile_of_obstacle path name source hobstacle)
    · obtain ⟨fw', hdump, hread⟩ := ofFile_of_legible path name source hlegible
      cases h.symm.trans hread
      exact ⟨text, hlegible, hdump⟩
  · rintro ⟨text, hlegible, hdump⟩
    rw [hlegible.encoded, ofFile_encode]
    exact hdump

end Firewall

end FirewallPolicy
