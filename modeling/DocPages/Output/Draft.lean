import DocPages.Text.Paragraphs
import DocPages.Text.Substitution

/-!
# Drafts of Markdown text

How the pieces of a Markdown text are put together: paragraphs are set apart by an empty line,
content that has to stand on one line is joined, and the cells of a table become its lines.
-/

namespace DocPages

namespace Markdown

/-- A step that writes after what is already written. -/
abbrev Writer := String → String

namespace Writer

def text (body : String) : Writer := fun written => written ++ body

/-- End the paragraph that is written, if there is one. -/
def breakParagraph : Writer := fun written =>
  if written.isEmpty || "\n\n".toList.isSuffixOf written.toList then written
  else written ++ "\n\n"

/-- Write in paragraphs of its own. -/
def block (body : Writer) : Writer := breakParagraph ∘ body ∘ breakParagraph

/-- What is written alone, on one line. -/
def inline (body : Writer) : String := Text.joinLines "<br>" (body "")

end Writer

/-- A text in marks on both sides. -/
def enclose (mark body : String) : String := mark ++ body ++ mark

/-- The text of a cell, in which no bar ends the cell. -/
def escapeCell (cell : String) : String := Text.replace "|" "\\|" cell

/-- A line of a table, filled up with empty cells. -/
def tableLine (columns : Nat) (cells : List String) : String :=
  "| " ++ String.intercalate " | " (cells ++ List.replicate (columns - cells.length) "") ++ " |"

/-- The number of columns that some rows need. -/
def columnCount (rows : List (List String)) : Nat :=
  (rows.map List.length).foldr max 0

/-- The lines of a table: its titles, a separator and its rows. -/
def tableLines (columns : Nat) (titles : List String) (rows : List (List String)) : List String :=
  tableLine columns titles :: tableLine columns (List.replicate columns "---") ::
    rows.map (tableLine columns)

end Markdown

end DocPages
