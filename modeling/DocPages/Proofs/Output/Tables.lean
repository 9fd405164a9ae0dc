import DocPages.Proofs.Output.Markdown
import DocPages.Proofs.Text.Substitution
import DocPages.Proofs.Text.Visible
import Mathlib.Order.Bounds.Basic

/-!
# Tables

A table is written as a line of its titles, a separator line, and a line for each row. Its cells
stand on one line each, and a backslash stands before every bar in them. So the bare bars of a line
are those around and between its columns, whatever the cells hold.
-/

namespace DocPages

open Content

namespace Text

theorem lineFeed_notMem_joinLines {separator : String} (free : '\n' ∉ separator.toList)
    (text : String) : '\n' ∉ (joinLines separator text).toList := by
  rw [joinLines, String.toList_intercalate]
  refine notMem_intercalate free (List.forall_mem_map.mpr fun line isLine => ?_)
  obtain ⟨whole, isWhole, rfl⟩ := List.mem_map.mp (List.mem_of_mem_filter isLine)
  obtain ⟨characters, isCut, rfl⟩ := List.mem_map.mp isWhole
  rw [trim, String.toList_ofList, String.toList_ofList]
  have kept : dropTrailingBlanks (dropLeadingBlanks characters) <:+: characters :=
    (List.rdropWhile_prefix isBlank _).isInfix.trans (List.dropWhile_suffix isBlank).isInfix
  exact mt (fun member => kept.subset member) (lineFeed_notMem_of_mem_lineCharacters isCut)

/-- A joined text ends as its parts end. -/
theorem getLast?_intercalate {joint : String} {parts : List String} (present : parts ≠ [])
    {last : Char} (each : ∀ part ∈ parts, part.toList.getLast? = some last) :
    (joint.intercalate parts).toList.getLast? = some last := by
  induction parts with
  | nil => exact (present rfl).elim
  | cons part parts ih =>
      obtain ⟨isLast, others⟩ := List.forall_mem_cons.mp each
      cases parts with
      | nil => rwa [String.intercalate_singleton]
      | cons next parts =>
          rw [String.intercalate_cons_of_ne_nil (List.cons_ne_nil next parts),
            String.toList_append, List.getLast?_append, ih (List.cons_ne_nil next parts) others,
            Option.some_or]

end Text

namespace Content.Node

/-- The cells of a row: the children of a group, and any other node itself. -/
def cells : Node → List Node
  | .group _ children => children
  | node => [node]

end Content.Node

namespace Markdown

/-! ## Bare bars -/

/-- The number of bars that do not stand directly behind a backslash, with a character before the
first one. -/
def bareBarsBehind (before : Option Char) : List Char → Nat
  | [] => 0
  | character :: rest =>
    (if character = '|' ∧ before ≠ some '\\' then 1 else 0) + bareBarsBehind (some character) rest

/-- The number of bars in a text that do not stand directly behind a backslash. -/
def bareBars (text : String) : Nat := bareBarsBehind none text.toList

theorem bareBarsBehind_append (before : Option Char) (left right : List Char) :
    bareBarsBehind before (left ++ right) =
      bareBarsBehind before left + bareBarsBehind (left.getLast?.or before) right := by
  induction left generalizing before with
  | nil => simp [bareBarsBehind]
  | cons character left ih =>
      have last : (character :: left).getLast?.or before = left.getLast?.or (some character) := by
        cases isLast : left.getLast? <;> simp [List.getLast?_cons, isLast]
      rw [List.cons_append, bareBarsBehind, bareBarsBehind, ih, last, Nat.add_assoc]

/-- No bar of the text is bare, whatever stands before the text. -/
def IsGuarded (text : String) : Prop := ∀ before, bareBarsBehind before text.toList = 0

theorem toList_escapeCell (cell : String) :
    (escapeCell cell).toList =
      cell.toList.flatMap fun character => if character = '|' then ['\\', '|'] else [character] :=
  Text.toList_replace_singleton '|' "\\|" cell

theorem isGuarded_escapeCell (cell : String) : IsGuarded (escapeCell cell) := by
  intro before
  rw [toList_escapeCell]
  induction cell.toList generalizing before with
  | nil => rfl
  | cons character rest ih =>
      rw [List.flatMap_cons, bareBarsBehind_append, ih]
      split
      · rfl
      · rename_i noBar
        simp [bareBarsBehind, noBar]

/-- Between cells without bare bars there is one bare bar each. -/
theorem bareBarsBehind_intercalate {cells : List String} (guarded : ∀ cell ∈ cells, IsGuarded cell)
    (before : Option Char) :
    bareBarsBehind before (String.intercalate " | " cells).toList = cells.length - 1 := by
  induction cells generalizing before with
  | nil => rfl
  | cons cell cells ih =>
      obtain ⟨cellGuarded, cellsGuarded⟩ := List.forall_mem_cons.mp guarded
      cases cells with
      | nil => simpa using cellGuarded before
      | cons next cells =>
          have joint : ∀ before, bareBarsBehind before " | ".toList = 1 := fun before => by
            simp [bareBarsBehind]
          rw [String.intercalate_cons_of_ne_nil (List.cons_ne_nil next cells), String.toList_append,
            String.toList_append, bareBarsBehind_append, bareBarsBehind_append, cellGuarded, joint,
            ih cellsGuarded]
          simp only [List.length_cons]
          omega

/-- A line has a bare bar before every column, and one behind the last. -/
theorem bareBars_tableLine {columns : Nat} {cells : List String}
    (guarded : ∀ cell ∈ cells, IsGuarded cell) (fits : cells.length ≤ columns)
    (present : columns ≠ 0) : bareBars (tableLine columns cells) = columns + 1 := by
  have filled : ∀ cell ∈ cells ++ List.replicate (columns - cells.length) "", IsGuarded cell := by
    refine List.forall_mem_append.mpr ⟨guarded, fun cell isCell before => ?_⟩
    rw [List.eq_of_mem_replicate isCell]
    rfl
  have opening : bareBarsBehind none "| ".toList = 1 := rfl
  have closing : ∀ before, bareBarsBehind before " |".toList = 1 := fun before => by
    simp [bareBarsBehind]
  rw [bareBars, tableLine, String.toList_append, String.toList_append, bareBarsBehind_append,
    bareBarsBehind_append, opening, closing, bareBarsBehind_intercalate filled, List.length_append,
    List.length_replicate]
  omega

theorem lineFeed_notMem_tableLine {columns : Nat} {cells : List String}
    (free : ∀ cell ∈ cells, '\n' ∉ cell.toList) : '\n' ∉ (tableLine columns cells).toList := by
  have joined : '\n' ∉ (String.intercalate " | "
      (cells ++ List.replicate (columns - cells.length) "")).toList := by
    rw [String.toList_intercalate]
    refine Text.notMem_intercalate (by decide) (List.forall_mem_map.mpr ?_)
    refine List.forall_mem_append.mpr ⟨free, fun cell isCell => ?_⟩
    rw [List.eq_of_mem_replicate isCell]
    exact List.not_mem_nil
  simpa [tableLine] using joined

theorem getLast?_tableLine (columns : Nat) (cells : List String) :
    (tableLine columns cells).toList.getLast? = some '|' := by
  rw [tableLine, String.toList_append, List.getLast?_append]
  rfl

/-! ## Columns -/

/-- There are as many columns as the longest row has cells. -/
theorem isGreatest_columnCount {rows : List (List String)} (present : rows ≠ []) :
    IsGreatest {count | ∃ row ∈ rows, row.length = count} (columnCount rows) := by
  induction rows with
  | nil => exact (present rfl).elim
  | cons row rows ih =>
      have counts : {count | ∃ other ∈ row :: rows, other.length = count} =
          insert row.length {count | ∃ other ∈ rows, other.length = count} := by
        ext count
        simp [eq_comm]
      have longest : columnCount (row :: rows) = max row.length (columnCount rows) := rfl
      rw [counts, longest]
      cases rows with
      | nil => simp [columnCount]
      | cons next rows => exact (ih (List.cons_ne_nil next rows)).insert row.length

/-! ## Tables -/

variable {setting : Setting}

theorem writtenRows_eq_map (rows : List Node) :
    writtenRows setting rows = rows.map fun row => writtenList setting row.cells := by
  induction rows with
  | nil => rfl
  | cons row rows ih => cases row <;> simp [writtenRows, writtenList, Node.cells, ih]

/-- The text of a node as a cell. -/
def cellText (setting : Setting) (node : Node) : String :=
  escapeCell (Writer.inline (write setting node))

theorem lineFeed_notMem_cellText (node : Node) : '\n' ∉ (cellText setting node).toList := by
  have free : '\n' ∉ (Writer.inline (write setting node)).toList :=
    Text.lineFeed_notMem_joinLines (by decide) _
  rw [cellText, toList_escapeCell, List.mem_flatMap]
  rintro ⟨character, member, isFeed⟩
  split at isFeed
  · simp at isFeed
  · exact free (List.mem_singleton.mp isFeed ▸ member)

/-- The line of some cells in a table. -/
def cellsLine (setting : Setting) (columns : Nat) (cells : List Node) : String :=
  tableLine columns (cells.map (cellText setting))

/-- The line between the titles of a table and its rows. -/
def separatorLine (columns : Nat) : String := tableLine columns (List.replicate columns "---")

/-- The text is one line of a table with some columns, with a bare bar before each of them and
behind the last. -/
structure IsTableLine (columns : Nat) (line : String) : Prop where
  lineFeed : '\n' ∉ line.toList
  bars : bareBars line = columns + 1

theorem isTableLine_cellsLine {columns : Nat} {cells : List Node} (fits : cells.length ≤ columns)
    (present : columns ≠ 0) : IsTableLine columns (cellsLine setting columns cells) where
  lineFeed := lineFeed_notMem_tableLine
    (List.forall_mem_map.mpr fun node _ => lineFeed_notMem_cellText node)
  bars := bareBars_tableLine (List.forall_mem_map.mpr fun _ _ => isGuarded_escapeCell _)
    (by rwa [List.length_map]) present

theorem isTableLine_separatorLine {columns : Nat} (present : columns ≠ 0) :
    IsTableLine columns (separatorLine columns) where
  lineFeed := lineFeed_notMem_tableLine fun cell isCell => by
    rw [List.eq_of_mem_replicate isCell]
    decide
  bars := bareBars_tableLine
    (fun cell isCell before => by rw [List.eq_of_mem_replicate isCell]; rfl)
    (Nat.le_of_eq List.length_replicate) present

/-- The text before the lines of a table, in which its caption has a paragraph of its own. -/
def beforeTable (caption : Option String) (written : String) : String :=
  match caption with
  | none => Writer.breakParagraph written
  | some caption => Writer.breakParagraph (Writer.breakParagraph written ++ caption)

theorem atLineStart_beforeTable (caption : Option String) (written : String) :
    Text.AtLineStart (beforeTable caption written) := by
  cases caption <;> exact Writer.atLineStart_breakParagraph _

/-- A paragraph of lines that end with a bar ends with an empty line. -/
private theorem breakParagraph_tableLines (columns : Nat) (titles : List String)
    (rows : List (List String)) (before : String) :
    Writer.breakParagraph (before ++ String.intercalate "\n" (tableLines columns titles rows)) =
      before ++ Text.linesText (tableLines columns titles rows) ++ "\n" := by
  have present : tableLines columns titles rows ≠ [] := List.cons_ne_nil _ _
  have barred : ∀ line ∈ tableLines columns titles rows, line.toList.getLast? = some '|' := by
    simp [tableLines, getLast?_tableLine]
  rw [Writer.breakParagraph_append (Text.getLast?_intercalate present barred) (by decide),
    Text.linesText_eq_intercalate present, Text.emptyLine_eq]
  simp only [String.append_assoc]

theorem tableWriter_apply (caption : Option String) (titles : List String)
    (rows : List (List String)) (written : String) :
    tableWriter caption titles rows written =
      if columnCount (titles :: rows) = 0 then written
      else beforeTable caption written ++
        Text.linesText (tableLines (columnCount (titles :: rows)) titles rows) ++ "\n" := by
  rw [tableWriter]
  split
  · rfl
  · cases caption <;> exact breakParagraph_tableLines _ titles rows _

/-- A table is written from the texts of its cells. -/
theorem write_table_eq (scope : Scope) (caption : Option Node) (titles rows : List Node) :
    write setting (.table scope caption titles rows) =
      tableWriter (caption.map fun node => (write setting node).inline)
        (titles.map (cellText setting))
        ((rows.map Node.cells).map (List.map (cellText setting))) := by
  have cellTexts : ∀ cells : List Node,
      (writtenList setting cells).map (escapeCell ·.inline) = cells.map (cellText setting) := by
    intro cells
    rw [writtenList_eq_map, List.map_map]
    rfl
  have captionText : (writtenPart setting caption).map Written.inline =
      caption.map fun node => (write setting node).inline := by
    cases caption <;> rfl
  rw [write, captionText, writtenRows_eq_map]
  simp only [List.map_map, Function.comp_def, cellTexts]

/-- A table is written in whole lines: one of its titles, a separator and one for each row. There
are as many columns as the titles or the longest row have cells, and each line has a bare bar before
every column and behind the last. Without cells nothing is written. -/
theorem write_table (setting : Setting) (scope : Scope) (caption : Option Node)
    (titles rows : List Node) (written : String) :
    ∃ columns,
      IsGreatest {count | ∃ cells ∈ titles :: rows.map Node.cells, cells.length = count} columns ∧
      if columns = 0 then write setting (.table scope caption titles rows) written = written
      else
        let before := beforeTable (caption.map fun node => (write setting node).inline) written
        let lines := cellsLine setting columns titles :: separatorLine columns ::
          rows.map fun row => cellsLine setting columns row.cells
        write setting (.table scope caption titles rows) written =
            before ++ Text.linesText lines ++ "\n" ∧
          Text.AtLineStart before ∧
          ∀ line ∈ lines, IsTableLine columns line := by
  let texts := (titles :: rows.map Node.cells).map (List.map (cellText setting))
  have greatest : IsGreatest {count | ∃ cells ∈ titles :: rows.map Node.cells,
      cells.length = count} (columnCount texts) := by
    have longest : IsGreatest {count | ∃ row ∈ texts, row.length = count} (columnCount texts) :=
      isGreatest_columnCount (List.cons_ne_nil _ _)
    simpa only [texts, List.mem_map, exists_exists_and_eq_and, List.length_map] using longest
  have linesOfTexts : tableLines (columnCount texts) (titles.map (cellText setting))
      ((rows.map Node.cells).map (List.map (cellText setting))) =
        cellsLine setting (columnCount texts) titles :: separatorLine (columnCount texts) ::
          rows.map fun row => cellsLine setting (columnCount texts) row.cells := by
    rw [tableLines, List.map_map, List.map_map]
    rfl
  refine ⟨columnCount texts, greatest, ?_⟩
  by_cases nothing : columnCount texts = 0
  · rw [if_pos nothing, write_table_eq, tableWriter_apply]
    exact if_pos nothing
  · rw [if_neg nothing]
    have line : ∀ cells ∈ titles :: rows.map Node.cells,
        IsTableLine (columnCount texts) (cellsLine setting (columnCount texts) cells) :=
      fun cells isRow => isTableLine_cellsLine (greatest.2 ⟨cells, isRow, rfl⟩) nothing
    obtain ⟨titlesLine, rowLines⟩ := List.forall_mem_cons.mp line
    refine ⟨?_, atLineStart_beforeTable _ written, ?_⟩
    · rw [write_table_eq, tableWriter_apply, ← linesOfTexts]
      exact if_neg nothing
    · refine List.forall_mem_cons.mpr ⟨titlesLine, List.forall_mem_cons.mpr
        ⟨isTableLine_separatorLine nothing, List.forall_mem_map.mpr fun row isRow => ?_⟩⟩
      exact rowLines row.cells (List.mem_map_of_mem isRow)

/-- A table in a cell of another one. -/
example :
    write { registry := .ofList [], depth := 0 }
        (.table {} none [.text {} "a|b"] [.table {} none [.text {} "c"] []]) "" =
      "| a\\|b |\n| --- |\n| \\| c \\|<br>\\| --- \\| |\n\n" := by
  decide +kernel

end Markdown

end DocPages
