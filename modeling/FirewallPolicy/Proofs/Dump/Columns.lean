import Mathlib.Data.Fintype.Basic
import FirewallPolicy.Proofs.Dump.Recovery

/-!
The layout of the columns does not matter.

A `Table` is a dump whose header is accepted and none of whose records is blank. Two records, each of a
table of its own, have the same cells if each required column has a cell in both and the two differ in
blanks around them at most (`SameCells`). Nothing is said of the order of the columns, of further columns,
of titles that stand there more than once, of the separators or of the blanks around titles.

The reader of a cell looks at the trimmed text only, so records with the same cells are read as the same
rule, or both are skipped (`SameCells.readRecord_eq_ok_iff`). The words of their warnings may differ, as an
unknown protocol is quoted with its blanks; the numbers of the lines do not (`skippedLine_warning`).

Proved: `tables_with_same_cells_read_alike`, two tables with the same cells have the same rules and skip
the same lines.
-/

namespace FirewallPolicy.Dump

open Text

/-! ## Records with the same cells -/

instance : Fintype Column where
  elems := {.name, .enabled, .action, .localPort, .remoteAddress, .remotePort, .protocol}
  complete column := by cases column <;> decide

structure Table where
  separator : List Char
  text : List Char
  header : Header
  read_header : Header.read requiredTitles separator ((lines text).headD []) = .ok header
  not_blank : ∀ line ∈ (lines text).tail, ¬Blank line

namespace Table

def records (t : Table) : List (List Char) := (lines t.text).tail

def CellAt (t : Table) (line : List Char) (column : Column) (text : List Char) : Prop :=
  Dump.CellAt t.header (split t.separator line) column text

/-- The cell of the line in the column without the blanks around it, if there is one. -/
def trimmed? (t : Table) (line : List Char) (column : Column) : Option (List Char) :=
  (cell t.header (split t.separator line) column).toOption.map trim

theorem trimmed?_of_cellAt {t : Table} {line text : List Char} {column : Column} (h : t.CellAt line column text) :
    t.trimmed? line column = some (trim text) := by
  rw [trimmed?, cell_eq_ok_iff.mpr h]
  rfl

theorem exists_cellAt {t : Table} {line trimmed : List Char} {column : Column}
    (h : t.trimmed? line column = some trimmed) : ∃ text, t.CellAt line column text ∧ trim text = trimmed := by
  obtain ⟨text, htext, rfl⟩ := Option.map_eq_some_iff.mp h
  refine ⟨text, cell_eq_ok_iff.mp ?_, rfl⟩
  cases hcell : cell t.header (split t.separator line) column with
  | ok found =>
    rw [hcell] at htext
    exact congrArg _ (Option.some.inj htext)
  | error fault =>
    rw [hcell] at htext
    cases htext

theorem read_eq (t : Table) :
    read t.separator t.text = .ok (readRecords t.header t.separator 2 t.records) := by
  simp only [read, t.read_header, ok_bind, pure_eq_ok, records]

end Table

/-- Both lines have a cell in each column, and the cells of a column differ in blanks around them at most. -/
def SameCells (first second : Table) (line line' : List Char) : Prop :=
  ∀ column, ∃ text text', first.CellAt line column text ∧ second.CellAt line' column text' ∧
    trim text = trim text'

namespace SameCells

variable {first second : Table} {line line' : List Char}

theorem symm (h : SameCells first second line line') : SameCells second first line' line := by
  intro column
  obtain ⟨text, text', hcell, hcell', heq⟩ := h column
  exact ⟨text', text, hcell', hcell, heq.symm⟩

/-- What there is to compare: both cells are found, and trimmed they are one text. -/
theorem iff_trimmed : SameCells first second line line' ↔
    ∀ column, (first.trimmed? line column).isSome ∧ first.trimmed? line column = second.trimmed? line' column := by
  refine forall_congr' fun column => ⟨?_, ?_⟩
  · rintro ⟨text, text', hcell, hcell', heq⟩
    rw [Table.trimmed?_of_cellAt hcell, Table.trimmed?_of_cellAt hcell', heq]
    exact ⟨rfl, rfl⟩
  · rintro ⟨hsome, heq⟩
    obtain ⟨trimmed, htrimmed⟩ := Option.isSome_iff_exists.mp hsome
    obtain ⟨text, hcell, htext⟩ := Table.exists_cellAt htrimmed
    obtain ⟨text', hcell', htext'⟩ := Table.exists_cellAt (heq ▸ htrimmed)
    exact ⟨text, text', hcell, hcell', htext.trans htext'.symm⟩

instance : Decidable (SameCells first second line line') := decidable_of_iff _ iff_trimmed.symm

theorem exists_cell (h : SameCells first second line line') {column : Column} {P : List Char → Prop}
    (hP : ∀ text text', trim text = trim text' → P text → P text')
    (hcell : ∃ text, first.CellAt line column text ∧ P text) :
    ∃ text, second.CellAt line' column text ∧ P text := by
  obtain ⟨text, hcell, htext⟩ := hcell
  obtain ⟨same, same', hsame, hsame', heq⟩ := h column
  obtain rfl := hcell.unique hsame
  exact ⟨same', hsame', hP text same' heq htext⟩

/-- A rule that is read from the cells of one line is read from those of the other. -/
theorem readFrom (h : SameCells first second line line') {r : Rule}
    (hr : r.ReadFrom first.header (split first.separator line)) :
    r.ReadFrom second.header (split second.separator line') where
  name := h.exists_cell (fun _ _ heq hname => heq ▸ hname) hr.name
  remoteAddresses :=
    h.exists_cell (fun _ _ heq hread => readAddresses_eq_of_trim_eq heq ▸ hread) hr.remoteAddresses
  remotePorts := h.exists_cell (fun _ _ heq hread => readPorts_eq_of_trim_eq heq ▸ hread) hr.remotePorts
  localPorts := h.exists_cell (fun _ _ heq hread => readPorts_eq_of_trim_eq heq ▸ hread) hr.localPorts
  protocol := h.exists_cell (fun _ _ heq hread => readProtocol_of_trim_eq heq hread) hr.protocol
  enabled := h.exists_cell (fun _ _ heq hread => readEnabled_eq_of_trim_eq heq ▸ hread) hr.enabled
  action := h.exists_cell (fun _ _ heq hread => readAction_eq_of_trim_eq heq ▸ hread) hr.action

/-- Records with the same cells are the same rule, if they are one. -/
theorem readRecord_eq_ok_iff (h : SameCells first second line line') {r : Rule} :
    readRecord first.header first.separator line = .ok r ↔
      readRecord second.header second.separator line' = .ok r := by
  unfold readRecord
  rw [ruleOfCells_eq_ok_iff, ruleOfCells_eq_ok_iff]
  exact ⟨h.readFrom, h.symm.readFrom⟩

end SameCells

/-! ## Lines that are skipped -/

def skippedLine (warning : String) : Nat :=
  Nat.ofDigitChars 10 ((warning.toList.drop "Skipping line ".length).takeWhile Char.isDigit) 0

theorem skippedLine_warning (n : Nat) (fault : Fault) : skippedLine (warning n fault) = n := by
  have hdigits : ∀ c ∈ Nat.toDigits 10 n, c.isDigit = true := fun c hc => isDigit_of_mem_toDigits n hc
  have hwarning : warning n fault = "Skipping line " ++ toString n ++ " - " ++ fault.message := rfl
  have hdrop : (warning n fault).toList.drop "Skipping line ".length =
      Nat.toDigits 10 n ++ (' ' :: '-' :: ' ' :: fault.message.toList) := by
    have hlength : "Skipping line ".length = 14 := by decide
    simp [hwarning, hlength]
  rw [skippedLine, hdrop, List.takeWhile_append_of_pos hdigits, List.takeWhile_cons_of_neg (by decide),
    List.append_nil]
  exact Nat.ofDigitChars_ten_toDigits

def Contents.skipped (contents : Contents) : List Nat := contents.warnings.map skippedLine

/-- Lines with the same cells, taken one after the other, give the same rules and skip the same numbers. -/
theorem readRecords_of_sameCells {first second : Table} {lines lines' : List (List Char)}
    (h : List.Forall₂ (SameCells first second) lines lines') (hblank : ∀ line ∈ lines, ¬Blank line)
    (hblank' : ∀ line ∈ lines', ¬Blank line) (n : Nat) :
    (readRecords first.header first.separator n lines).rules =
        (readRecords second.header second.separator n lines').rules ∧
      (readRecords first.header first.separator n lines).skipped =
        (readRecords second.header second.separator n lines').skipped := by
  induction h generalizing n with
  | nil => exact ⟨rfl, rfl⟩
  | @cons line line' rest rest' hline _ ih =>
    obtain ⟨hrules, hskipped⟩ := ih (fun l hl => hblank l (List.mem_cons_of_mem _ hl))
      (fun l hl => hblank' l (List.mem_cons_of_mem _ hl)) (n + 1)
    have hone := hblank line List.mem_cons_self
    have hone' := hblank' line' List.mem_cons_self
    cases houtcome : readRecord first.header first.separator line with
    | ok r =>
      have houtcome' := hline.readRecord_eq_ok_iff.mp houtcome
      rw [readRecords_of_ok _ _ n rest hone houtcome, readRecords_of_ok _ _ n rest' hone' houtcome']
      exact ⟨congrArg (r :: ·) hrules, hskipped⟩
    | error fault =>
      cases houtcome' : readRecord second.header second.separator line' with
      | ok r =>
        rw [hline.readRecord_eq_ok_iff.mpr houtcome'] at houtcome
        cases houtcome
      | error fault' =>
        rw [readRecords_of_error _ _ n rest hone houtcome, readRecords_of_error _ _ n rest' hone' houtcome']
        refine ⟨hrules, ?_⟩
        unfold Contents.skipped at hskipped ⊢
        rw [List.map_cons, List.map_cons, skippedLine_warning, skippedLine_warning, hskipped]

/-- Two tables that have the same cells, record by record, have the same rules and skip the same lines. -/
theorem tables_with_same_cells_read_alike {first second : Table}
    (h : List.Forall₂ (SameCells first second) first.records second.records) :
    ∃ contents contents', read first.separator first.text = .ok contents ∧
      read second.separator second.text = .ok contents' ∧
      contents.rules = contents'.rules ∧ contents.skipped = contents'.skipped := by
  obtain ⟨hrules, hskipped⟩ := readRecords_of_sameCells h first.not_blank second.not_blank 2
  exact ⟨_, _, first.read_eq, second.read_eq, hrules, hskipped⟩

/-- Records of a rule and of an unknown protocol, in the order of the required titles. -/
def plainRecords : List (List Char) :=
  ["web;Yes;Allow;80;Any;Any;TCP".toList, "odd;No;Block;7;Any;Any;x".toList]

/-- The same records from right to left, with another separator, a further column in front, and blanks. -/
def mirroredRecords : List (List Char) :=
  ["-||TCP||Any||Any||80 ||Allow||Yes||web".toList, "|| x ||Any||Any||7||Block||No||\todd".toList]

def plainTable : Table where
  separator := [';']
  text := ['\n'].intercalate ([';'].intercalate (requiredTitles.map String.toList) :: plainRecords)
  header := ⟨requiredTitles⟩
  read_header := by decide +kernel
  not_blank := by decide +kernel

/-- The further column has the title of the names, too. -/
def mirroredTable : Table where
  separator := ['|', '|']
  text := ['\r'].intercalate (['|', '|'].intercalate
    ("Name".toList :: requiredTitles.reverse.map fun title => ' ' :: title.toList) :: mirroredRecords)
  header := ⟨"Name" :: requiredTitles.reverse⟩
  read_header := by decide +kernel
  not_blank := by decide +kernel

/-- Both tables have the one rule, and both skip the third line. -/
theorem mirrored_table_reads_alike :
    List.Forall₂ (SameCells plainTable mirroredTable) plainTable.records mirroredTable.records ∧
      ∃ contents contents', read plainTable.separator plainTable.text = .ok contents ∧
        read mirroredTable.separator mirroredTable.text = .ok contents' ∧
        contents.rules = contents'.rules ∧ contents.skipped = contents'.skipped ∧
        contents.rules.map (·.name) = ["web"] ∧ contents.skipped = [3] := by
  have hrecords : plainTable.records = plainRecords := by decide +kernel
  have hrecords' : mirroredTable.records = mirroredRecords := by decide +kernel
  have hcells : List.Forall₂ (SameCells plainTable mirroredTable) plainTable.records mirroredTable.records := by
    rw [hrecords, hrecords']
    refine .cons ?_ (.cons ?_ .nil)
    · decide +kernel
    · decide +kernel
  obtain ⟨contents, contents', hread, hread', hrules, hskipped⟩ := tables_with_same_cells_read_alike hcells
  refine ⟨hcells, contents, contents', hread, hread', hrules, hskipped, ?_⟩
  rw [plainTable.read_eq, hrecords] at hread
  obtain rfl := Except.ok.inj hread
  decide +kernel

end FirewallPolicy.Dump
