import FirewallPolicy.Proofs.Dump.Record

/-!
Reading a dump loses no line and repeats none.

A dump is refused for its first line only: if there is none, if it is blank, or if required titles are
missing from it (`HeaderFault`). After it, lines are numbered through, blank ones included, and each line
that is not blank (`records`) is either read as one rule or skipped with one warning that has its number
and the fault of the line. Which of the two it is, and with what rule or fault, is a matter of that line
and of the titles in the first line.

`readRecords` takes the lines one after the other (`readRecords_of_blank`, `readRecords_of_ok`,
`readRecords_of_error`), so what holds after all of them is proved along the lines
(`readRecords_accounts`).

Proved: `read_accounts_for_every_line`, all of this for every text and every separator but the empty one;
and what is wrong with a line that is skipped is a cell that is not there or is refused.
-/

namespace FirewallPolicy.Dump

open Text

/-! ## The first line -/

def Blank (line : List Char) : Prop := ∀ c ∈ line, isBlank c = true

-- Along the line, and not through the finitely many characters that there are.
instance (line : List Char) : Decidable (Blank line) := List.decidableBAll _ line

theorem isEmpty_trim_iff {line : List Char} : (trim line).isEmpty = true ↔ Blank line := by
  rw [List.isEmpty_iff]
  exact trim_eq_nil_iff

def titlesOf (separator line : List Char) : List String :=
  (split separator line).map fun c => String.ofList (trim c)

/-- The required titles that are not in the line, in the order in which they are required. -/
def missingTitles (separator line : List Char) : List String :=
  requiredTitles.filter fun title => decide (title ∉ titlesOf separator line)

inductive HeaderFault (separator : List Char) : List (List Char) → Fault → Prop
  | none : HeaderFault separator [] .missingHeader
  | blank {first : List Char} {rest : List (List Char)} : Blank first →
      HeaderFault separator (first :: rest) .missingHeader
  | incomplete {first : List Char} {rest : List (List Char)} : ¬Blank first →
      missingTitles separator first ≠ [] →
      HeaderFault separator (first :: rest) (.missingColumns (missingTitles separator first))

theorem Header.read_eq {separator : List Char} (hseparator : separator ≠ []) (line : List Char) :
    Header.read requiredTitles separator line =
      if Blank line then .error (.dump .missingHeader)
      else if missingTitles separator line = [] then .ok ⟨titlesOf separator line⟩
      else .error (.dump (.missingColumns (missingTitles separator line))) := by
  have hsome : separator.isEmpty = false := by simpa using hseparator
  have hmissing : requiredTitles.filter (!(titlesOf separator line).contains ·) = missingTitles separator line :=
    List.filter_congr fun title _ => by simp
  unfold Header.read
  by_cases hblank : Blank line
  · rw [if_pos (isEmpty_trim_iff.mpr hblank), if_pos hblank]
  · rw [if_neg fun h => hblank (isEmpty_trim_iff.mp h), if_neg hblank, hsome]
    simp only [Bool.false_eq_true, if_false]
    split
    · rename_i hnone
      rw [if_pos (hmissing.symm.trans hnone)]
      rfl
    · rename_i hnot
      rw [if_neg fun hnone => hnot (hmissing.trans hnone), ← hmissing]
      rfl

theorem title_mem_of_complete {separator line : List Char} (h : missingTitles separator line = [])
    (column : Column) : column.title ∈ titlesOf separator line := by
  have hrequired : column.title ∈ requiredTitles := by cases column <;> decide
  have hkept := List.filter_eq_nil_iff.mp h column.title hrequired
  simpa using hkept

/-! ## The other lines -/

/-- The lines after the first that are not blank, each with its number in the text. -/
def records (text : List Char) : List (List Char × Nat) :=
  ((lines text).zipIdx 1).tail.filter fun l => decide (¬Blank l.1)

def warning? (number : Nat) : Except Fault Rule → Option String
  | .ok _ => none
  | .error fault => some s!"Skipping line {number} - {fault.message}"

/-- Each line has given one rule or one warning, by its outcome, and rules and warnings are in the order of
the lines. -/
structure Contents.Accounts (contents : Contents) (outcome : List Char → Except Fault Rule)
    (records : List (List Char × Nat)) : Prop where
  rules : contents.rules = records.filterMap fun l => (outcome l.1).toOption
  warnings : contents.warnings = records.filterMap fun l => warning? l.2 (outcome l.1)
  length_eq : contents.rules.length + contents.warnings.length = records.length

section Lines

variable (header : Header) (separator : List Char) (n : Nat) {line : List Char} (rest : List (List Char))

theorem readRecords_of_blank (h : Blank line) :
    readRecords header separator n (line :: rest) = readRecords header separator (n + 1) rest := by
  rw [readRecords, if_pos (isEmpty_trim_iff.mpr h)]

theorem readRecords_of_ok (h : ¬Blank line) {r : Rule} (hr : readRecord header separator line = .ok r) :
    readRecords header separator n (line :: rest) =
      { readRecords header separator (n + 1) rest with
        rules := r :: (readRecords header separator (n + 1) rest).rules } := by
  rw [readRecords, if_neg fun hempty => h (isEmpty_trim_iff.mp hempty), hr]

theorem readRecords_of_error (h : ¬Blank line) {fault : Fault}
    (hfault : readRecord header separator line = .error fault) :
    readRecords header separator n (line :: rest) =
      { readRecords header separator (n + 1) rest with
        warnings := warning n fault :: (readRecords header separator (n + 1) rest).warnings } := by
  rw [readRecords, if_neg fun hempty => h (isEmpty_trim_iff.mp hempty), hfault]

end Lines

/-- What is read of lines accounts for those of them that are not blank. -/
theorem readRecords_accounts (header : Header) (separator : List Char) (n : Nat) (lines : List (List Char)) :
    (readRecords header separator n lines).Accounts (readRecord header separator)
      ((lines.zipIdx n).filter fun l => decide (¬Blank l.1)) := by
  induction lines generalizing n with
  | nil => exact ⟨rfl, rfl, rfl⟩
  | cons line rest ih =>
    obtain ⟨hrules, hwarnings, hlength⟩ := ih (n + 1)
    rw [List.zipIdx_cons]
    by_cases hblank : Blank line
    · rw [readRecords_of_blank header separator n rest hblank, List.filter_cons_of_neg (by simpa using hblank)]
      exact ih (n + 1)
    · rw [List.filter_cons_of_pos (by simpa using hblank)]
      cases houtcome : readRecord header separator line with
      | ok r =>
        rw [readRecords_of_ok header separator n rest hblank houtcome]
        refine ⟨?_, ?_, ?_⟩
        · rw [List.filterMap_cons_some (by rw [houtcome]; rfl), ← hrules]
        · rw [List.filterMap_cons_none (by rw [houtcome]; rfl), ← hwarnings]
        · simp only [List.length_cons]
          omega
      | error fault =>
        rw [readRecords_of_error header separator n rest hblank houtcome]
        refine ⟨?_, ?_, ?_⟩
        · rw [List.filterMap_cons_none (by rw [houtcome]; rfl), ← hrules]
        · rw [List.filterMap_cons_some (by rw [houtcome]; rfl), ← hwarnings]
          rfl
        · simp only [List.length_cons]
          omega

/-! ## The whole dump -/

theorem read_cons {separator text first : List Char} (hseparator : separator ≠ [])
    {rest : List (List Char)} (hlines : lines text = first :: rest) (hblank : ¬Blank first)
    (hcomplete : missingTitles separator first = []) :
    read separator text = .ok (readRecords ⟨titlesOf separator first⟩ separator 2 rest) := by
  have hheader := Header.read_eq hseparator first
  rw [if_neg hblank, if_pos hcomplete] at hheader
  simp only [read, hlines, List.headD_cons, hheader, List.tail_cons, ok_bind, pure_eq_ok]

theorem read_of_headerFault {separator text : List Char} (hseparator : separator ≠ []) {fault : Fault}
    (h : HeaderFault separator (lines text) fault) : read separator text = .error (.dump fault) := by
  have hheader : Header.read requiredTitles separator ((lines text).headD []) = .error (.dump fault) := by
    rw [Header.read_eq hseparator]
    generalize lines text = all at h
    cases h with
    | none => rfl
    | blank hblank => exact if_pos hblank
    | incomplete hblank hmissing => rw [List.headD_cons, if_neg hblank, if_neg hmissing]
  simp only [read, hheader]
  rfl

theorem headerFault_or_complete (separator : List Char) (lines : List (List Char)) :
    (∃ fault, HeaderFault separator lines fault) ∨
      ∃ first rest, lines = first :: rest ∧ ¬Blank first ∧ missingTitles separator first = [] := by
  cases lines with
  | nil => exact Or.inl ⟨_, .none⟩
  | cons first rest =>
    by_cases hblank : Blank first
    · exact Or.inl ⟨_, .blank hblank⟩
    by_cases hmissing : missingTitles separator first = []
    · exact Or.inr ⟨first, rest, rfl, hblank, hmissing⟩
    · exact Or.inl ⟨_, .incomplete hblank hmissing⟩

/-- A dump is refused exactly if its first line is at fault, and then for that fault. Any other dump is
read: every line after the first that is not blank gives one rule or one warning with its number, in the
order of the lines. Which of them it gives depends on that line and on the titles of the first line, and
a line gives a warning only because a cell is not there or is refused. -/
theorem read_accounts_for_every_line {separator : List Char} (hseparator : separator ≠ [])
    (text : List Char) :
    (∀ failure, read separator text = .error failure ↔
      ∃ fault, failure = .dump fault ∧ HeaderFault separator (lines text) fault) ∧
    ((¬∃ fault, HeaderFault separator (lines text) fault) →
      ∃ first rest contents, lines text = first :: rest ∧ read separator text = .ok contents ∧
        contents.Accounts (readRecord ⟨titlesOf separator first⟩ separator) (records text) ∧
        ∀ line fault, readRecord ⟨titlesOf separator first⟩ separator line = .error fault →
          RecordFault ⟨titlesOf separator first⟩ (split separator line) fault) := by
  rcases headerFault_or_complete separator (lines text) with
    ⟨fault, hfault⟩ | ⟨first, rest, hlines, hblank, hcomplete⟩
  · have hread := read_of_headerFault hseparator hfault
    refine ⟨fun failure => ⟨fun h => ?_, ?_⟩, fun hnone => absurd ⟨fault, hfault⟩ hnone⟩
    · rw [hread] at h
      cases h
      exact ⟨fault, rfl, hfault⟩
    · rintro ⟨fault', rfl, hfault'⟩
      exact read_of_headerFault hseparator hfault'
  · have hread := read_cons hseparator hlines hblank hcomplete
    refine ⟨fun failure => ⟨fun h => ?_, ?_⟩, fun _ => ⟨first, rest, _, hlines, hread, ?_, ?_⟩⟩
    · rw [hread] at h
      cases h
    · rintro ⟨fault, rfl, hfault⟩
      exact read_of_headerFault hseparator hfault
    · have haccounts := readRecords_accounts ⟨titlesOf separator first⟩ separator 2 rest
      rw [records, hlines]
      exact haccounts
    · intro line fault hfault
      exact recordFault_of_ruleOfCells (title_mem_of_complete hcomplete) hfault

/-- Lines of a dump: a header, a blank line, a rule, a record without a port and one that ends too soon. -/
def patchyLines : List (List Char) :=
  [[';'].intercalate (requiredTitles.map String.toList), [' ', '\t'],
    "web;Yes;Allow;80;Any;Any;TCP".toList, "off;No;Allow; ;Any;Any;TCP".toList, "cut;No".toList]

/-- The rule is read, and the two records are skipped with their numbers. If the first line is a record,
the dump is refused, and all titles are named. -/
theorem patchy_dump_is_accounted_for :
    [';'] ≠ ([] : List Char) ∧
      (∃ contents, read [';'] (['\n'].intercalate patchyLines) = .ok contents ∧
        contents.rules.map (·.name) = ["web"] ∧
        contents.warnings = ["Skipping line 4 - Port is null or empty.",
          "Skipping line 5 - Expected at least 7 columns, found 2"]) ∧
      ∃ failure, read [';'] "cut;No".toList = .error failure ∧
        failure.message = "Failed to find required headers: " ++
          "Name, Enabled, Action, Local Port, Remote Address, Remote Port, Protocol" := by
  have hseparator : [';'] ≠ ([] : List Char) := by decide
  obtain ⟨-, haccounted⟩ := read_accounts_for_every_line hseparator (['\n'].intercalate patchyLines)
  obtain ⟨hrefused, -⟩ := read_accounts_for_every_line hseparator "cut;No".toList
  refine ⟨hseparator, ?_, ?_⟩
  · have hlines : lines (['\n'].intercalate patchyLines) = patchyLines := by decide +kernel
    rw [records, hlines] at haccounted
    have hnone : ¬∃ fault, HeaderFault [';'] patchyLines fault := by
      rintro ⟨fault, hfault⟩
      cases hfault with
      | blank hblank => exact absurd hblank (by decide +kernel)
      | incomplete _ hmissing => exact hmissing (by decide +kernel)
    obtain ⟨first, rest, contents, hfirst, hread, haccounts, -⟩ := haccounted hnone
    obtain rfl := (List.cons.inj hfirst).1
    refine ⟨contents, hread, ?_, ?_⟩
    · rw [haccounts.rules]
      decide +kernel
    · rw [haccounts.warnings]
      decide +kernel
  · refine ⟨_, (hrefused _).mpr ⟨_, rfl, .incomplete ?_ ?_⟩, ?_⟩
    · decide +kernel
    · decide +kernel
    · decide +kernel

end FirewallPolicy.Dump
