import FirewallPolicy.Proofs.Dump.RoundTrip
import FirewallPolicy.Proofs.Dump.Spelling

/-!
What a record says, and why it is refused.

The cell of a column stands where the title of the column comes last in the header (`Header.LastAt`,
`CellAt`). A record is read exactly as the rule that its seven cells describe one by one
(`Rule.ReadFrom`, `ruleOfCells_eq_ok_iff`): no cell is looked at through another one, and no other cell
at all. The reader of a cell looks at the trimmed text only; just the message for an unknown protocol has
the blanks in it.

If the header has all columns, only two things can be wrong with a record: a cell is not there, or the
reader of its column refuses it (`RecordFault`, `recordFault_of_ruleOfCells`).
-/

namespace FirewallPolicy

open Text

theorem error_of_bind_eq_error {ε α β : Type} {x : Except ε α} {f : α → Except ε β} {e : ε}
    (h : (x >>= f) = .error e) : x = .error e ∨ ∃ a, x = .ok a ∧ f a = .error e := by
  cases x with
  | error e' =>
    cases h
    exact Or.inl rfl
  | ok a => exact Or.inr ⟨a, rfl, h⟩

namespace Dump

/-! ## Cells -/

/-- The title stands in the column and in none behind it. -/
def Header.LastAt (h : Header) (title : String) (i : Nat) : Prop :=
  h.titles[i]? = some title ∧ ∀ j, i < j → h.titles[j]? ≠ some title

theorem Header.LastAt.unique {h : Header} {title : String} {i j : Nat} (hi : h.LastAt title i)
    (hj : h.LastAt title j) : i = j := by
  rcases Nat.lt_trichotomy i j with hlt | heq | hgt
  · exact absurd hj.1 (hi.2 j hlt)
  · exact heq
  · exact absurd hi.1 (hj.2 i hgt)

theorem Header.lastAt_of_position? {h : Header} {title : String} {i : Nat}
    (hposition : h.position? title = some i) : h.LastAt title i := by
  unfold position? at hposition
  obtain ⟨k, hk, rfl⟩ := Option.map_eq_some_iff.mp hposition
  obtain ⟨hlt, htitle, hnone⟩ := List.idxOf?_eq_some_iff.mp hk
  rw [List.length_reverse] at hlt
  rw [List.getElem_reverse] at htitle
  refine ⟨?_, fun j hj => ?_⟩
  · rw [List.getElem?_eq_getElem (by omega), htitle]
  · -- Read from the end, a later column comes earlier.
    by_cases hlast : j < h.titles.length
    · have hearlier := hnone (h.titles.length - 1 - j) (by omega)
      rw [List.getElem_reverse] at hearlier
      have hback : h.titles.length - 1 - (h.titles.length - 1 - j) = j := by omega
      simp only [hback] at hearlier
      rw [List.getElem?_eq_getElem hlast]
      intro heq
      exact hearlier (Option.some.inj heq)
    · rw [List.getElem?_eq_none (by omega)]
      simp

theorem Header.position?_eq_some_iff {h : Header} {title : String} {i : Nat} :
    h.position? title = some i ↔ h.LastAt title i := by
  constructor
  · exact lastAt_of_position?
  · intro hlast
    obtain ⟨j, hj, -⟩ := exists_position (List.mem_of_getElem? hlast.1)
    rw [hj, hlast.unique (lastAt_of_position? hj)]

/-- The text is the cell of a record in a column: what stands under the last title of the column. -/
def CellAt (header : Header) (cells : List (List Char)) (column : Column) (text : List Char) : Prop :=
  ∃ i, header.LastAt column.title i ∧ cells[i]? = some text

theorem cell_eq_ok_iff {header : Header} {cells : List (List Char)} {column : Column} {text : List Char} :
    cell header cells column = .ok text ↔ CellAt header cells column text := by
  unfold cell CellAt
  constructor
  · intro h
    split at h
    · cases h
    rename_i i hposition
    split at h
    · rename_i found hfound
      cases h
      exact ⟨i, Header.position?_eq_some_iff.mp hposition, hfound⟩
    · cases h
  · rintro ⟨i, hlast, htext⟩
    simp only [Header.position?_eq_some_iff.mpr hlast, htext]

theorem CellAt.unique {header : Header} {cells : List (List Char)} {column : Column} {text text' : List Char}
    (h : CellAt header cells column text) (h' : CellAt header cells column text') : text = text' := by
  rw [← cell_eq_ok_iff] at h h'
  rw [h] at h'
  exact Except.ok.inj h'

/-! ## Readers and blanks -/

section Blanks

variable {text text' : List Char} (h : trim text = trim text')

include h

theorem readAddresses_eq_of_trim_eq : readAddresses text = readAddresses text' := by
  unfold readAddresses
  rw [h]

theorem readPorts_eq_of_trim_eq : readPorts text = readPorts text' := by
  unfold readPorts
  rw [h]

theorem readAction_eq_of_trim_eq : readAction text = readAction text' := by
  unfold readAction
  rw [h]

theorem readEnabled_eq_of_trim_eq : readEnabled text = readEnabled text' := by
  unfold readEnabled
  rw [h]

/-- What the protocol is does not depend on blanks. The message for a text that is none does. -/
theorem readProtocol_of_trim_eq {p : Protocol} (hread : Protocol.read text = .ok p) :
    Protocol.read text' = .ok p := by
  unfold Protocol.read at hread ⊢
  rw [← h]
  by_cases hany : isAny (trim text) = true
  · simpa only [if_pos hany] using hread
  · simp only [if_neg hany] at hread ⊢
    split at hread
    · exact hread
    · split at hread
      · cases hread
      · exact hread

end Blanks

end Dump

/-! ## Records that are read -/

structure Rule.ReadFrom (r : Rule) (header : Dump.Header) (cells : List (List Char)) : Prop where
  name : ∃ text, Dump.CellAt header cells .name text ∧ r.name = String.ofList (trim text)
  remoteAddresses : ∃ text, Dump.CellAt header cells .remoteAddress text ∧
    Dump.readAddresses text = .ok r.remoteAddresses
  remotePorts : ∃ text, Dump.CellAt header cells .remotePort text ∧ Dump.readPorts text = .ok r.remotePorts
  localPorts : ∃ text, Dump.CellAt header cells .localPort text ∧ Dump.readPorts text = .ok r.localPorts
  protocol : ∃ text, Dump.CellAt header cells .protocol text ∧ Protocol.read text = .ok r.protocol
  enabled : ∃ text, Dump.CellAt header cells .enabled text ∧ r.enabled = Dump.readEnabled text
  action : ∃ text, Dump.CellAt header cells .action text ∧ Dump.readAction text = .ok r.action

namespace Dump

variable {header : Header} {cells : List (List Char)}

theorem ruleOfCells_eq_ok_iff {r : Rule} : ruleOfCells header cells = .ok r ↔ r.ReadFrom header cells := by
  constructor
  · intro h
    unfold ruleOfCells at h
    obtain ⟨name, hname, h⟩ := exists_of_bind_eq_ok h
    obtain ⟨addressText, haddressText, h⟩ := exists_of_bind_eq_ok h
    obtain ⟨addresses, haddresses, h⟩ := exists_of_bind_eq_ok h
    obtain ⟨remoteText, hremoteText, h⟩ := exists_of_bind_eq_ok h
    obtain ⟨remotePorts, hremotePorts, h⟩ := exists_of_bind_eq_ok h
    obtain ⟨localText, hlocalText, h⟩ := exists_of_bind_eq_ok h
    obtain ⟨localPorts, hlocalPorts, h⟩ := exists_of_bind_eq_ok h
    obtain ⟨protocolText, hprotocolText, h⟩ := exists_of_bind_eq_ok h
    obtain ⟨protocol, hprotocol, h⟩ := exists_of_bind_eq_ok h
    obtain ⟨enabledText, henabledText, h⟩ := exists_of_bind_eq_ok h
    obtain ⟨actionText, hactionText, h⟩ := exists_of_bind_eq_ok h
    obtain ⟨action, haction, h⟩ := exists_of_bind_eq_ok h
    cases h
    exact {
      name := ⟨name, cell_eq_ok_iff.mp hname, rfl⟩
      remoteAddresses := ⟨addressText, cell_eq_ok_iff.mp haddressText, eq_ok_of_ofCell haddresses⟩
      remotePorts := ⟨remoteText, cell_eq_ok_iff.mp hremoteText, eq_ok_of_ofCell hremotePorts⟩
      localPorts := ⟨localText, cell_eq_ok_iff.mp hlocalText, eq_ok_of_ofCell hlocalPorts⟩
      protocol := ⟨protocolText, cell_eq_ok_iff.mp hprotocolText, eq_ok_of_ofCell hprotocol⟩
      enabled := ⟨enabledText, cell_eq_ok_iff.mp henabledText, rfl⟩
      action := ⟨actionText, cell_eq_ok_iff.mp hactionText, eq_ok_of_ofCell haction⟩ }
  · rintro ⟨⟨name, hname, hr₁⟩, ⟨addressText, haddressText, haddresses⟩, ⟨remoteText, hremoteText, hremote⟩,
      ⟨localText, hlocalText, hlocal⟩, ⟨protocolText, hprotocolText, hprotocol⟩,
      ⟨enabledText, henabledText, hr₂⟩, actionText, hactionText, haction⟩
    rw [← cell_eq_ok_iff] at hname haddressText hremoteText hlocalText hprotocolText henabledText hactionText
    simp only [ruleOfCells, hname, haddressText, haddresses, hremoteText, hremote, hlocalText, hlocal,
      hprotocolText, hprotocol, henabledText, hactionText, haction, ofCell, ok_bind, pure_eq_ok, ← hr₁, ← hr₂]

/-! ## Records that are refused -/

/-- The reader of the column refuses the text. Every text is a name, and every text says whether a rule is
enabled. -/
def Column.Refuses : Column → List Char → Invalid → Prop
  | .name, _, _ => False
  | .enabled, _, _ => False
  | .action, text, cause => readAction text = .error cause
  | .localPort, text, cause => readPorts text = .error cause
  | .remoteAddress, text, cause => readAddresses text = .error cause
  | .remotePort, text, cause => readPorts text = .error cause
  | .protocol, text, cause => Protocol.read text = .error cause

/-- What is wrong with a record: the last column of a title lies behind its end, or a cell is refused. -/
inductive RecordFault (header : Header) (cells : List (List Char)) : Fault → Prop
  | short {column : Column} {i : Nat} : header.LastAt column.title i → cells.length ≤ i →
      RecordFault header cells (.shortRecord header.titles.length cells.length)
  | refused {column : Column} {text : List Char} {cause : Invalid} : CellAt header cells column text →
      column.Refuses text cause → RecordFault header cells (.badCell cause)

theorem recordFault_of_cell (hheader : ∀ column : Column, column.title ∈ header.titles) {column : Column}
    {fault : Fault} (h : cell header cells column = .error fault) : RecordFault header cells fault := by
  obtain ⟨i, hposition, -⟩ := Header.exists_position (hheader column)
  unfold cell at h
  simp only [hposition] at h
  split at h
  · cases h
  · rename_i hnone
    cases h
    exact .short (Header.position?_eq_some_iff.mp hposition) (List.getElem?_eq_none_iff.mp hnone)

/-- A fault in a column, or behind it: the cell is not there, or it is refused, or the fault comes later. -/
theorem recordFault_of_column (hheader : ∀ column : Column, column.title ∈ header.titles) (column : Column)
    {α β : Type} {read : List Char → Except Invalid α}
    (hread : ∀ text cause, read text = .error cause → column.Refuses text cause) {next : α → Except Fault β}
    {fault : Fault} (h : (cell header cells column >>= fun text => ofCell (read text) >>= next) = .error fault) :
    RecordFault header cells fault ∨ ∃ x, next x = .error fault := by
  rcases error_of_bind_eq_error h with hmissing | ⟨text, htext, hrest⟩
  · exact Or.inl (recordFault_of_cell hheader hmissing)
  rcases error_of_bind_eq_error hrest with hrefused | ⟨x, -, hnext⟩
  · cases hcause : read text with
    | ok x =>
      rw [hcause] at hrefused
      cases hrefused
    | error cause =>
      rw [hcause] at hrefused
      cases hrefused
      exact Or.inl (.refused (cell_eq_ok_iff.mp htext) (hread text cause hcause))
  · exact Or.inr ⟨x, hnext⟩

/-- Under a header with all titles, a record is refused for a cell that is not there or is refused. -/
theorem recordFault_of_ruleOfCells (hheader : ∀ column : Column, column.title ∈ header.titles) {fault : Fault}
    (h : ruleOfCells header cells = .error fault) : RecordFault header cells fault := by
  unfold ruleOfCells at h
  rcases error_of_bind_eq_error h with h | ⟨_, -, h⟩
  · exact recordFault_of_cell hheader h
  rcases recordFault_of_column hheader .remoteAddress (fun _ _ => id) h with h | ⟨_, h⟩
  · exact h
  rcases recordFault_of_column hheader .remotePort (fun _ _ => id) h with h | ⟨_, h⟩
  · exact h
  rcases recordFault_of_column hheader .localPort (fun _ _ => id) h with h | ⟨_, h⟩
  · exact h
  rcases recordFault_of_column hheader .protocol (fun _ _ => id) h with h | ⟨_, h⟩
  · exact h
  rcases error_of_bind_eq_error h with h | ⟨_, -, h⟩
  · exact recordFault_of_cell hheader h
  rcases recordFault_of_column hheader .action (fun _ _ => id) h with h | ⟨_, h⟩
  · exact h
  cases h

end Dump

end FirewallPolicy
