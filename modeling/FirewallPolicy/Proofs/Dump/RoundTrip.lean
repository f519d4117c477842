import FirewallPolicy.Dump.Record
import FirewallPolicy.Proofs.Dump.Cell
import FirewallPolicy.Proofs.Rule.Protocol

/-!
A rule is read back from the record that is written for it.

A layout (`Dump.Layout`) says how a dump is written: the columns in their order, with what the header
says over each and what stands in those that are none of a rule's, and the word for a disabled rule. The
columns of a rule are found by their titles, wherever they stand and whatever stands between them
(`Layout.cell_eq`), because a title is only looked up at a position where it stands
(`Header.exists_position`).

A rule can be written (`Rule.Writable`) if there is nothing to trim from its name and no tab in it, and if
its sets and its protocol have a text of their own: a set of no ranges has none, and neither has a number
that a set or a protocol keeps although it is everything.

Proved: `readRecord_recordLine`, whatever the layout, the header line is read, and with it a rule that can
be written is read from its record line.
-/

namespace FirewallPolicy

open Text

/-! ## Headers -/

namespace Dump

namespace Column

def all : List Column := [name, enabled, action, localPort, remoteAddress, remotePort, protocol]

def ofHeading? (heading : List Char) : Option Column :=
  all.find? fun column => column.title == String.ofList (trim heading)

theorem ofHeading?_eq_some {heading : List Char} {column : Column}
    (h : String.ofList (trim heading) = column.title) : ofHeading? heading = some column := by
  rw [ofHeading?, h]
  cases column <;> decide +kernel

end Column

theorem Header.exists_position {h : Header} {title : String} (hmem : title ∈ h.titles) :
    ∃ i, h.position? title = some i ∧ h.titles[i]? = some title := by
  cases hfound : h.titles.reverse.idxOf? title with
  | none =>
    rw [List.idxOf?_eq_none_iff, List.mem_reverse] at hfound
    exact absurd hmem hfound
  | some k =>
    obtain ⟨hlt, htitle, -⟩ := List.idxOf?_eq_some_iff.mp hfound
    have hk := List.getElem?_eq_getElem hlt
    rw [List.length_reverse] at hlt
    rw [htitle, List.getElem?_reverse hlt] at hk
    exact ⟨h.titles.length - 1 - k, by rw [position?, hfound]; rfl, hk⟩

/-! ## Layouts -/

/-- How a dump is written, with tabs between the columns. -/
structure Layout where
  /-- The columns: what the header says, and what stands in the column if it is none of a rule's. -/
  columns : List (List Char × List Char)
  /-- What stands in place of "Yes" for a disabled rule. -/
  off : List Char
  /-- Every column of a rule is there, once or more often. -/
  titled : ∀ column : Column, ∃ c ∈ columns, String.ofList (trim c.1) = column.title
  columns_tabless : ∀ c ∈ columns, '\t' ∉ c.1 ∧ '\t' ∉ c.2
  off_tabless : '\t' ∉ off
  off_ne : trim off ≠ "Yes".toList

end Dump

structure Rule.Writable (r : Rule) : Prop where
  name_trimmed : trim r.name.toList = r.name.toList
  name_tabless : '\t' ∉ r.name.toList
  remoteAddresses : r.remoteAddresses.Plain
  remotePorts : r.remotePorts.Plain
  localPorts : r.localPorts.Plain
  protocol : r.protocol.Plain

namespace Dump

def written (off : List Char) (r : Rule) : Column → List Char
  | .name => r.name.toList
  | .enabled => if r.enabled then "Yes".toList else off
  | .action => r.action.word.toList
  | .localPort => r.localPorts.text.toList
  | .remoteAddress => r.remoteAddresses.text.toList
  | .remotePort => r.remotePorts.text.toList
  | .protocol => r.protocol.text.toList

namespace Layout

variable (layout : Layout)

def headerLine : List Char := ['\t'].intercalate (layout.columns.map (·.1))

def cellOf (r : Rule) (c : List Char × List Char) : List Char :=
  match Column.ofHeading? c.1 with
  | some column => written layout.off r column
  | none => c.2

def recordLine (r : Rule) : List Char := ['\t'].intercalate (layout.columns.map (layout.cellOf r))

def header : Header := ⟨layout.columns.map fun c => String.ofList (trim c.1)⟩

variable {layout}

theorem title_mem (column : Column) : column.title ∈ layout.header.titles := by
  obtain ⟨c, hc, htitle⟩ := layout.titled column
  exact List.mem_map.mpr ⟨c, hc, htitle⟩

theorem columns_ne_nil : layout.columns ≠ [] := by
  obtain ⟨c, hc, -⟩ := layout.titled .name
  exact List.ne_nil_of_mem hc

theorem trim_headerLine_ne_nil : trim layout.headerLine ≠ [] := by
  intro hblank
  obtain ⟨c, hc, htitle⟩ := layout.titled .name
  have hheading : trim c.1 = [] := by
    refine trim_eq_nil_iff.mpr fun d hd => ?_
    exact trim_eq_nil_iff.mp hblank d (mem_intercalate_of_mem (List.mem_map_of_mem hc) hd)
  rw [hheading] at htitle
  exact absurd htitle (by decide)

theorem read_headerLine : Header.read requiredTitles ['\t'] layout.headerLine = .ok layout.header := by
  have hblank : (trim layout.headerLine).isEmpty = false := by
    simpa using layout.trim_headerLine_ne_nil
  have htabless : ∀ heading ∈ layout.columns.map (·.1), '\t' ∉ heading := by
    intro heading hheading
    obtain ⟨c, hc, rfl⟩ := List.mem_map.mp hheading
    exact (layout.columns_tabless c hc).1
  have hcut : split ['\t'] layout.headerLine = layout.columns.map (·.1) :=
    split_join htabless (by simpa using layout.columns_ne_nil)
  have htitles : (split ['\t'] layout.headerLine).map (fun c => String.ofList (trim c)) =
      layout.header.titles := by
    rw [hcut, header, List.map_map]
    rfl
  have hmissing : requiredTitles.filter (!layout.header.titles.contains ·) = [] := by
    rw [List.filter_eq_nil_iff]
    intro title htitle
    obtain ⟨column, -, rfl⟩ := List.mem_map.mp htitle
    simpa using layout.title_mem column
  simp only [Header.read, List.isEmpty_cons, Bool.false_eq_true, if_false, hblank, htitles, hmissing]

/-- In a column of a rule stands what is written for the rule. -/
theorem cell_eq (r : Rule) (column : Column) :
    cell layout.header (layout.columns.map (layout.cellOf r)) column =
      .ok (written layout.off r column) := by
  obtain ⟨i, hposition, htitle⟩ := Header.exists_position (layout.title_mem column)
  simp only [header, List.getElem?_map, Option.map_eq_some_iff] at htitle
  obtain ⟨c, hc, htitle⟩ := htitle
  have hcell : layout.cellOf r c = written layout.off r column := by
    rw [cellOf, Column.ofHeading?_eq_some htitle]
  simp only [cell, hposition, List.getElem?_map, hc, Option.map_some, hcell]

end Layout

/-! ## Cells without tabs -/

theorem tab_not_mem_text {q : Quantity} {s : ValueSet q} (h : s.Plain) : '\t' ∉ s.text.toList := by
  rcases h with rfl | ⟨ranges, -, rfl⟩
  · show '\t' ∉ "Any".toList
    decide
  · rw [ValueSet.toList_text_ofRanges]
    intro hmem
    rcases mem_of_mem_intercalate hmem with hsep | ⟨piece, hpiece, htab⟩
    · exact absurd hsep (by decide)
    · obtain ⟨r, -, rfl⟩ := List.mem_map.mp hpiece
      cases r.isRangeChar_of_mem_text htab

theorem tab_not_mem_written {off : List Char} (hoff : '\t' ∉ off) {r : Rule} (h : r.Writable)
    (column : Column) : '\t' ∉ written off r column := by
  cases column with
  | name => exact h.name_tabless
  | enabled =>
    show '\t' ∉ if r.enabled then "Yes".toList else off
    split
    · decide
    · exact hoff
  | action =>
    show '\t' ∉ r.action.word.toList
    cases r.action <;> decide
  | localPort => exact tab_not_mem_text h.localPorts
  | remoteAddress => exact tab_not_mem_text h.remoteAddresses
  | remotePort => exact tab_not_mem_text h.remotePorts
  | protocol =>
    intro htab
    cases Protocol.isBlank_of_mem_text htab

theorem Layout.split_recordLine (layout : Layout) {r : Rule} (h : r.Writable) :
    split ['\t'] (layout.recordLine r) = layout.columns.map (layout.cellOf r) := by
  refine split_join ?_ (by simpa using layout.columns_ne_nil)
  intro text htext
  obtain ⟨c, hc, rfl⟩ := List.mem_map.mp htext
  unfold Layout.cellOf
  split
  · exact tab_not_mem_written layout.off_tabless h _
  · exact (layout.columns_tabless c hc).2

/-! ## Reading back -/

theorem readAction_word (action : Action) : readAction action.word.toList = .ok action := by
  cases action <;> decide +kernel

theorem readEnabled_written (layout : Layout) (r : Rule) :
    readEnabled (written layout.off r .enabled) = r.enabled := by
  cases he : r.enabled with
  | true =>
    simp only [written, he, if_true]
    decide
  | false => simpa [written, he, readEnabled] using layout.off_ne

/-- The header line of a layout is read, and with it a rule that can be written is read from its record
line. -/
theorem readRecord_recordLine (layout : Layout) {r : Rule} (h : r.Writable) :
    ∃ header, Header.read requiredTitles ['\t'] layout.headerLine = .ok header ∧
      readRecord header ['\t'] (layout.recordLine r) = .ok r := by
  refine ⟨layout.header, layout.read_headerLine, ?_⟩
  have hname : String.ofList (trim r.name.toList) = r.name := by
    rw [h.name_trimmed, String.ofList_toList]
  have henabled := readEnabled_written layout r
  rw [readRecord, layout.split_recordLine h]
  simp only [ruleOfCells, layout.cell_eq r, ok_bind, henabled]
  simp only [written, readAddresses_text h.remoteAddresses, readPorts_text h.remotePorts,
    readPorts_text h.localPorts, Protocol.read_text h.protocol, readAction_word, ofCell, ok_bind, hname,
    pure_eq_ok]

/-- A layout with a column that no rule has, a padded heading and a padded word for a disabled rule. -/
def Layout.profiled : Layout where
  columns := [("Protocol", ""), ("Remote Address", ""), ("Profile", "Domain, Private"), (" Name ", ""),
    ("Local Port", ""), ("Action", ""), ("Enabled", ""), ("Remote Port", "")].map
      fun c => (c.1.toList, c.2.toList)
  off := " No".toList
  titled column := by cases column <;> decide +kernel
  columns_tabless := by decide +kernel
  off_tabless := by decide
  off_ne := by decide

/-- A disabled rule about two ranges of addresses, the second in the wrong order. -/
def tunnel : Rule where
  name := "tunnels (old)"
  remoteAddresses := .ofRanges [⟨167772161, 167772169, by decide, by decide⟩, ⟨5, 1, by decide, by decide⟩]
  localPorts := .ofRanges [⟨1701, 1701, by decide, by decide⟩, ⟨4500, 4500, by decide, by decide⟩]
  protocol := ⟨false, 115, by decide⟩
  enabled := false
  action := .block

theorem tunnel_writable : tunnel.Writable where
  name_trimmed := by decide +kernel
  name_tabless := by decide +kernel
  remoteAddresses := .inr ⟨_, List.cons_ne_nil _ _, rfl⟩
  remotePorts := .inl rfl
  localPorts := .inr ⟨_, List.cons_ne_nil _ _, rfl⟩
  protocol := .inr rfl

/-- The record of such a rule in such a layout, and the rule that is read from it. -/
theorem tunnel_is_read_back :
    tunnel.Writable ∧
      Layout.profiled.recordLine tunnel =
        ("L2TP\t10.0.0.1-10.0.0.9, 0.0.0.5-0.0.0.1\tDomain, Private\ttunnels (old)\t" ++
          "1701, 4500\tBlock\t No\tAny").toList ∧
      ∃ header, Header.read requiredTitles ['\t'] Layout.profiled.headerLine = .ok header ∧
        readRecord header ['\t'] (Layout.profiled.recordLine tunnel) = .ok tunnel :=
  ⟨tunnel_writable, by decide +kernel, readRecord_recordLine Layout.profiled tunnel_writable⟩

end Dump

end FirewallPolicy
