import DocPages.Text.Blank
import DocPages.Text.Splitting

/-!
# Paragraphs

A paragraph is a run of lines that are not blank. A text in normal form has no blanks at the end of
a line and one empty line between two paragraphs.
-/

namespace DocPages

namespace Text

/-- Paragraphs with one more in front, unless it has no lines. -/
def addParagraph : List String → List (List String) → List (List String)
  | [], paragraphs => paragraphs
  | lines, paragraphs => lines :: paragraphs

/-- The lines up to the first empty one, and the paragraphs after it. -/
def splitParagraphs : List String → List String × List (List String)
  | [] => ([], [])
  | line :: rest =>
    let (lines, paragraphs) := splitParagraphs rest
    if line.isEmpty then ([], addParagraph lines paragraphs) else (line :: lines, paragraphs)

/-- The runs of lines that are not empty. -/
def paragraphs (lines : List String) : List (List String) :=
  let (first, others) := splitParagraphs lines
  addParagraph first others

/-- The text of some paragraphs, which ends with a line feed unless there are none. -/
def ofParagraphs : List (List String) → String
  | [] => ""
  | paragraphs => String.intercalate "\n\n" (paragraphs.map (String.intercalate "\n")) ++ "\n"

/-- A text in normal form. -/
def normalizeBlankLines (text : String) : String :=
  ofParagraphs (paragraphs ((lines text).map trimEnd))

/-- The lines of a text that are not blank, trimmed and joined by a separator. -/
def joinLines (separator text : String) : String :=
  String.intercalate separator (((lines text).map trim).filter (!·.isEmpty))

end Text

end DocPages
