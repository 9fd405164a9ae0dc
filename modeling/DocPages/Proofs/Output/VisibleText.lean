import DocPages.Proofs.Content.Texts
import DocPages.Proofs.Output.Signatures
import DocPages.Proofs.Output.Tables
import DocPages.Proofs.Page.Walk

/-!
# Visible text of pages

What a page has to say is in its Markdown text: every visible character of its content, in the order
of the content. Each node writes what its children write, one behind the other, and all that is
added are marks. Left out are only captions of tables without cells, variants that read the same,
and signatures that repeat the one before them.
-/

namespace DocPages

open Content

namespace Content.Node

/-- The caption of a table. -/
def caption? : Node → Option Node
  | .table _ caption _ _ => caption
  | _ => none

/-- The text of a row is that of its cells. -/
theorem textContent_eq_cells (row : Node) :
    row.textContent = String.join (row.cells.map textContent) := by
  cases row with
  | group scope children => exact textContent_eq_join rfl
  | _ => exact String.empty_append.symm

end Content.Node

namespace Markdown

namespace Writer

/-- The step writes behind what is written already, and what it writes shows the body. -/
def Shows (writer : Writer) (body : String) : Prop :=
  ∀ written, ∃ more, writer written = written ++ more ∧ Text.Shows more body

variable {writer : Writer} {body : String}

theorem Appends.shows (appends : writer.Appends) : writer.Shows "" := fun written =>
  let ⟨more, isWritten⟩ := appends written
  ⟨more, isWritten, Text.shows_empty more⟩

theorem shows_text {text : String} (shows : Text.Shows text body) : (Writer.text text).Shows body :=
  fun _ => ⟨text, rfl, shows⟩

theorem Shows.comp {second first : Writer} {early late : String} (secondShows : second.Shows late)
    (firstShows : first.Shows early) : Shows (second ∘ first) (early ++ late) := by
  intro written
  obtain ⟨before, afterFirst, showsEarly⟩ := firstShows written
  obtain ⟨behind, afterSecond, showsLate⟩ := secondShows (first written)
  refine ⟨before ++ behind, ?_, showsEarly.append showsLate⟩
  rw [Function.comp_apply, afterSecond, afterFirst, String.append_assoc]

theorem Shows.trans {text : String} (shows : writer.Shows text) (inner : Text.Shows text body) :
    writer.Shows body := by
  intro written
  obtain ⟨more, isWritten, moreShows⟩ := shows written
  exact ⟨more, isWritten, inner.trans moreShows⟩

theorem Shows.block (shows : writer.Shows body) : writer.block.Shows body := by
  have whole := appends_breakParagraph.shows.comp (shows.comp appends_breakParagraph.shows)
  rwa [String.append_empty, String.empty_append] at whole

/-- On one line a step shows what it shows. -/
theorem Shows.inline (shows : writer.Shows body) : Text.Shows writer.inline body := by
  obtain ⟨more, isWritten, moreShows⟩ := shows ""
  rw [Writer.inline, isWritten, String.empty_append]
  exact moreShows.trans (Text.shows_joinLines "<br>" more)

end Writer

/-! ## Marks -/

theorem shows_enclose {text body : String} (shows : Text.Shows text body) (mark : String) :
    Text.Shows (enclose mark text) body :=
  (shows.preceded mark).followed mark

theorem shows_markStyle (styles : OrderedSet Style) (style : Style) (mark : String)
    {text body : String} (shows : Text.Shows text body) :
    Text.Shows (markStyle styles style mark text) body := by
  rw [markStyle]
  split
  · exact shows_enclose shows mark
  · exact shows

theorem shows_styledText (styles : OrderedSet Style) (body : String) :
    Text.Shows (styledText styles body) body := by
  rw [styledText]
  split
  · rename_i nothing
    rw [String.isEmpty_iff.mp nothing]
    exact Text.shows_empty ""
  · exact List.foldlRecOn (motive := (Text.Shows · body)) _ _ (Text.shows_self body)
      fun _ shows marked _ => shows_markStyle styles marked.1 marked.2 shows

theorem shows_signatureText (code : String) : Text.Shows (signatureText code) code := by
  rw [signatureText]
  split
  · rename_i nothing
    rw [String.isEmpty_iff.mp nothing]
    exact Text.shows_empty ""
  · exact shows_enclose (Text.shows_self code) _

theorem shows_linkText (target : LinkTarget) {text body : String} (shows : Text.Shows text body) :
    Text.Shows (linkText target text) body := by
  cases target with
  | declaration dri => exact shows
  | address url => exact (((shows.preceded "[").followed _).followed url).followed ")"

/-- The lines of a list show its items. -/
theorem shows_listText (ordered : Bool) (items : List String) :
    Text.Shows (listText ordered items) (String.join items) := by
  have lines : ∀ line : Nat → String → String, (∀ index item, Text.Shows (line index item) item) →
      Text.Shows (String.join (items.mapIdx line)) (String.join items) := by
    induction items with
    | nil => exact fun _ _ => Text.shows_empty ""
    | cons item items ih =>
        intro line each
        rw [List.mapIdx_cons, String.join_cons, String.join_cons]
        exact (each 0 item).append (ih _ fun index => each (index + 1))
  exact lines _ fun index item => ((Text.shows_self item).preceded _).followed "\n"

/-! ## Tables -/

/-- A line of a table shows its cells. -/
theorem shows_tableLine (columns : Nat) (cells : List String) :
    Text.Shows (tableLine columns cells) (String.join cells) := by
  have padded : Text.Shows (String.join (cells ++ List.replicate (columns - cells.length) ""))
      (String.join cells) := by
    rw [String.join_append]
    exact (Text.shows_self _).followed _
  exact ((padded.of_sublist (Text.join_sublist_intercalate " | " _)).preceded "| ").followed " |"

/-- The lines of a table show its cells. -/
theorem shows_tableLines (columns : Nat) (titles : List String) (rows : List (List String)) :
    Text.Shows (Text.linesText (tableLines columns titles rows))
      (String.join (titles :: rows).flatten) := by
  have rowLines : Text.Shows (Text.linesText (rows.map (tableLine columns)))
      (String.join rows.flatten) := by
    rw [Text.linesText, List.map_map, Text.join_flatten]
    exact Text.shows_join fun row _ => (shows_tableLine columns row).followed "\n"
  rw [tableLines, Text.linesText_cons, Text.linesText_cons, List.flatten_cons, String.join_append]
  exact ((shows_tableLine columns titles).followed "\n").append (rowLines.preceded _)

/-- A table without a caption shows its cells. -/
theorem shows_tableWriter (titles : List String) (rows : List (List String)) :
    (tableWriter none titles rows).Shows (String.join (titles :: rows).flatten) := by
  intro written
  rw [tableWriter_apply]
  by_cases nothing : columnCount (titles :: rows) = 0
  · have noCells : (titles :: rows).flatten = [] := by
      refine List.flatten_eq_nil_iff.mpr fun row isRow => ?_
      have fits := (isGreatest_columnCount (List.cons_ne_nil titles rows)).2 ⟨row, isRow, rfl⟩
      exact List.length_eq_zero_iff.mp (Nat.le_zero.mp (nothing ▸ fits))
    rw [if_pos nothing, noCells]
    exact Writer.appends_id.shows written
  · obtain ⟨more, isBefore⟩ := Writer.appends_breakParagraph written
    rw [if_neg nothing, beforeTable, isBefore, String.append_assoc, String.append_assoc]
    exact ⟨_, rfl, ((shows_tableLines _ titles rows).followed "\n").preceded more⟩

/-! ## Children -/

variable {setting : Setting}

/-- No two neighbours are signatures that differ in their source sets alone. -/
def RepeatsNoSignature (nodes : List Node) : Prop :=
  nodes.IsChain fun first second =>
    ¬(isSignature first ∧ isSignature second ∧ first.AgreesElsewhere second)

instance (nodes : List Node) : Decidable (RepeatsNoSignature nodes) :=
  inferInstanceAs (Decidable (nodes.IsChain _))

/-- Nodes of which no signature repeats the one before it are all written. -/
theorem shows_writeAfter {nodes : List Node} (unrepeated : RepeatsNoSignature nodes)
    (each : ∀ node ∈ nodes, (write setting node).Shows node.textContent) {signature : Option Node}
    (fresh : ∀ first ∈ nodes.head?, isSignature first → signature ≠ some first.comparedForm) :
    (Written.writeAfter signature (writtenList setting nodes)).Shows
      (String.join (nodes.map Node.textContent)) := by
  induction nodes generalizing signature with
  | nil => exact Writer.appends_id.shows
  | cons head tail ih =>
      obtain ⟨headShows, tailShow⟩ := List.forall_mem_cons.mp each
      obtain ⟨notRepeated, tailUnrepeated⟩ := List.isChain_cons.mp unrepeated
      rw [writtenList, Written.writeAfter, List.map_cons, String.join_cons]
      split
      · rename_i isSigned
        have behind : ∀ next ∈ tail.head?, isSignature next →
            some head.comparedForm ≠ some next.comparedForm := fun next isNext nextSigned same =>
          notRepeated next isNext
            ⟨isSigned, nextSigned, Node.agreesElsewhere_iff.mpr (Option.some.inj same)⟩
        have first : Writer.Shows
            (write setting head ∘ if signature.isSome then Writer.breakParagraph else id)
            ("" ++ head.textContent) :=
          headShows.comp (Writer.appends_ite Writer.appends_breakParagraph).shows
        dsimp only
        rw [if_neg (fresh head rfl isSigned), ← String.empty_append (s := head.textContent)]
        exact (ih tailUnrepeated tailShow behind).comp first
      · exact (ih tailUnrepeated tailShow (by simp)).comp headShows

theorem shows_writeAll {nodes : List Node} (unrepeated : RepeatsNoSignature nodes)
    (each : ∀ node ∈ nodes, (write setting node).Shows node.textContent) :
    (Written.writeAll (writtenList setting nodes)).Shows
      (String.join (nodes.map Node.textContent)) :=
  shows_writeAfter unrepeated each fun _ _ _ => by simp

/-- The parts of an instance are its children. -/
theorem writtenParts_eq (scope : Scope) (before divergent after : Option Node) :
    (writtenPart setting before).toList ++ (writtenPart setting divergent).toList ++
        (writtenPart setting after).toList =
      writtenList setting (Node.divergentInstance scope before divergent after).children := by
  cases before <;> cases divergent <;> cases after <;> rfl

/-! ## All nodes -/

/-- Nothing that the node itself holds is left out when it is written: it has no variants, no
caption and no repeated signatures. -/
structure IsWrittenWhole (node : Node) : Prop where
  noVariants : node.shape ≠ .divergentGroup
  noCaption : node.caption? = none
  unrepeated : RepeatsNoSignature node.children

instance (node : Node) : Decidable (IsWrittenWhole node) :=
  decidable_of_iff
    (node.shape ≠ .divergentGroup ∧ node.caption? = none ∧ RepeatsNoSignature node.children)
    ⟨fun ⟨noVariants, noCaption, unrepeated⟩ => ⟨noVariants, noCaption, unrepeated⟩,
      fun ⟨noVariants, noCaption, unrepeated⟩ => ⟨noVariants, noCaption, unrepeated⟩⟩

theorem shows_escapeCell (cell : String) : Text.Shows (escapeCell cell) cell := by
  refine (Text.shows_self cell).of_sublist ?_
  rw [toList_escapeCell]
  induction cell.toList with
  | nil => exact .slnil
  | cons character rest ih =>
      rw [List.flatMap_cons]
      have first : [character].Sublist (if character = '|' then ['\\', '|'] else [character]) := by
        split
        · rename_i isBar
          rw [isBar]
          exact List.sublist_append_right ['\\'] ['|']
        · exact List.Sublist.refl _
      exact first.append ih

/-- A table without a caption shows what its cells show. -/
theorem shows_write_table (scope : Scope) {titles rows : List Node}
    (each : ∀ cell ∈ (titles :: rows.map Node.cells).flatten,
      (write setting cell).Shows cell.textContent) :
    (write setting (.table scope none titles rows)).Shows
      (Node.table scope none titles rows).textContent := by
  have cellTexts : (titles.map (cellText setting) ::
      (rows.map Node.cells).map (List.map (cellText setting))).flatten =
        (titles :: rows.map Node.cells).flatten.map (cellText setting) :=
    (List.map_flatten (f := cellText setting) (L := titles :: rows.map Node.cells)).symm
  have texts : (Node.table scope none titles rows).textContent =
      String.join ((titles :: rows.map Node.cells).flatten.map Node.textContent) := by
    have rowTexts : String.join (rows.map Node.textContent) =
        String.join ((rows.map Node.cells).flatten.map Node.textContent) := by
      rw [List.map_flatten, Text.join_flatten, List.map_map, List.map_map]
      exact congrArg String.join (List.map_congr_left fun row _ => row.textContent_eq_cells)
    rw [Node.textContent_eq_join rfl, List.flatten_cons, List.map_append, String.join_append,
      ← rowTexts, ← String.join_append, ← List.map_append]
    rfl
  rw [write_table_eq, texts]
  refine (shows_tableWriter _ _).trans ?_
  rw [cellTexts]
  exact Text.shows_join fun cell isCell =>
    (each cell isCell).inline.trans (shows_escapeCell _)

/-- What a node holds is in what is written for it. -/
theorem shows_write (setting : Setting) {node : Node}
    (whole : ∀ part ∈ node.walk, IsWrittenWhole part) :
    (write setting node).Shows node.textContent := by
  -- A table writes the children of its rows.
  suffices both : (write setting node).Shows node.textContent ∧
      ∀ child ∈ node.children, (write setting child).Shows child.textContent from both.1
  induction node using Node.childInduction with
  | step node ih =>
      have here : IsWrittenWhole node := whole node (Node.walk_eq node ▸ List.mem_cons_self)
      have below : ∀ child ∈ node.children, ∀ part ∈ child.walk, IsWrittenWhole part := by
        intro child isChild part isPart
        refine whole part ?_
        rw [Node.walk_eq]
        exact List.mem_cons_of_mem node (List.mem_flatMap_of_mem isChild isPart)
      have childrenShow : ∀ child ∈ node.children, (write setting child).Shows child.textContent :=
        fun child isChild => (ih child isChild (below child isChild)).1
      obtain ⟨noVariants, noCaption, unrepeated⟩ := here
      have all := shows_writeAll unrepeated childrenShow
      refine ⟨?_, childrenShow⟩
      cases node with
      | text scope body =>
          have isBody : (Node.text scope body).textContent = body := String.empty_append
          rw [isBody]
          exact Writer.shows_text (shows_styledText scope.styles body)
      | lineBreak scope => exact (Writer.appends_text "\n").shows
      | group scope children =>
          rw [write]
          split
          · exact Writer.shows_text (shows_signatureText _)
          · rw [Node.textContent_eq_join rfl]
            split
            · exact all.block
            · exact all
      | header scope level children =>
          rw [Node.textContent_eq_join rfl]
          exact (Writer.shows_text (all.inline.preceded _)).block
      | code scope language isBlock children =>
          rw [write]
          split
          · exact (Writer.shows_text (((Text.shows_self _).preceded _).followed _)).block
          · exact Writer.shows_text (shows_enclose (Text.shows_self _) _)
      | link scope target children =>
          rw [Node.textContent_eq_join rfl]
          exact Writer.shows_text (shows_linkText target all.inline)
      | table scope caption titles rows =>
          obtain rfl : caption = none := noCaption
          refine shows_write_table scope fun cell isCell => ?_
          rcases List.mem_append.mp isCell with isTitle | inRow
          · exact childrenShow cell (List.mem_append_left rows isTitle)
          · obtain ⟨cells, isCells, inCells⟩ := List.mem_flatten.mp inRow
            obtain ⟨row, isRow, rfl⟩ := List.mem_map.mp isCells
            have isChild := List.mem_append_right titles isRow
            obtain ⟨rowShows, partsShow⟩ := ih row isChild (below row isChild)
            cases row with
            | group => exact partsShow cell inCells
            | _ =>
                obtain rfl := List.mem_singleton.mp inCells
                exact rowShows
      | list scope ordered children =>
          rw [Node.textContent_eq_join rfl, write, writtenList_eq_map, List.map_map]
          refine (Writer.shows_text ?_).block
          exact (Text.shows_join fun child isChild => (childrenShow child isChild).inline).trans
            (shows_listText ordered _)
      | divergentGroup scope groupId hinted children => exact (noVariants rfl).elim
      | divergentInstance scope before divergent after =>
          rw [Node.textContent_eq_join rfl, write, writtenParts_eq scope]
          exact all
      | platformHinted scope inner =>
          rw [Node.textContent_eq_join rfl]
          exact (childrenShow inner List.mem_cons_self).comp
            (Writer.appends_ite (Writer.appends_text _)).shows

end Markdown

namespace Page

open Markdown

/-- What the pages of a tree hold is in its Markdown text, page by page, if the contents have no
variants, no captions and no signatures that repeat the one before them. -/
theorem shows_markdown (registry : Registry) {root : Page}
    (whole : ∀ page ∈ root.all, ∀ node ∈ page.content.walk, IsWrittenWhole node) :
    Text.Shows (root.markdown registry)
      (String.join (root.all.map fun page => page.content.textContent)) := by
  rw [markdown_eq, all, List.map_map]
  refine Text.Shows.trans (Text.shows_join fun placed isPlaced => ?_)
    (Text.shows_normalizeBlankLines _)
  obtain ⟨more, isWritten, moreShows⟩ :=
    shows_write { registry, depth := placed.1 } (whole placed.2 (List.mem_map_of_mem isPlaced)) ""
  rw [sectionText, isWritten, String.empty_append]
  exact moreShows.followed "\n\n"

/-- A package of two variants of a function, with a table of what it takes. -/
private def shapes : Page :=
  let signature := fun (text : String) =>
    Content.Node.group { styles := ⟨[.monospace]⟩ } [.text {} text]
  let opening : Content.Node := .group {}
    [signature "fun open()", signature "suspend fun open()",
      .table {} none [.text {} "Name"] [.group {} [.text {} " a|b ", .lineBreak {}]]]
  ⟨.package, "shapes", .header {} 1 [.text { styles := ⟨[.bold]⟩ } "shapes"], {}, [],
    [⟨.member, "open", opening, {}, [], []⟩]⟩

theorem shows_markdown_shapes :
    (∀ page ∈ shapes.all, ∀ node ∈ page.content.walk, IsWrittenWhole node) ∧
      Text.Shows (shapes.markdown (.ofList [])) "shapesfun open()suspend fun open()Name a|b " ∧
      shapes.markdown (.ofList []) =
        "# **shapes**\n\n`fun open()`\n\n`suspend fun open()`\n\n" ++
          "| Name |  |\n| --- | --- |\n| a\\|b |  |\n" :=
  have whole : ∀ page ∈ shapes.all, ∀ node ∈ page.content.walk, IsWrittenWhole node := by
    decide +kernel
  ⟨whole, shows_markdown (.ofList []) whole, by decide +kernel⟩

end Page

end DocPages
