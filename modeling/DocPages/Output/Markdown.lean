import DocPages.Content.Variants
import DocPages.Output.Draft
import DocPages.Page.Tree
import DocPages.Platform.Registry

/-!
# Markdown pages

Every page as a section of a Markdown text, with headings nested by the depth of the page. A link to
a declaration is written as its text, because no place is known for it. With several platforms,
content that depends on them starts with their names.
-/

namespace DocPages

open Content

namespace Markdown

/-- The surroundings of a page: the known source sets, and the depth of the page in its tree. -/
structure Setting where
  registry : Registry
  depth : Nat

namespace Setting

/-- There are platforms to tell apart. -/
def hasPlatforms (setting : Setting) : Bool := 1 < setting.registry.size

/-- The names of some source sets. -/
def hint (setting : Setting) (sourceSets : SourceSets) : Writer :=
  .text ("[" ++ String.intercalate ", " (sourceSets.toList.map setting.registry.displayName) ++
    "] ")

/-- The marks of a heading, between one and six. -/
def headingMarks (setting : Setting) (level : Nat) : String :=
  String.join (List.replicate (max 1 (min 6 (level + setting.depth))) "#")

end Setting

/-- A text in a mark if there is a style. -/
def markStyle (styles : OrderedSet Style) (style : Style) (mark body : String) : String :=
  if styles.contains style then enclose mark body else body

/-- A text in the marks of its styles, from the innermost to the outermost. -/
def styledText (styles : OrderedSet Style) (body : String) : String :=
  if body.isEmpty then ""
  else
    [(Style.monospace, "`"), (.strikethrough, "~~"), (.italic, "*"), (.bold, "**")].foldl
      (fun body (style, mark) => markStyle styles style mark body) body

/-- A group that stands in paragraphs of its own. -/
def isBlock (scope : Scope) : Bool :=
  [Style.block, .paragraph, .cover, .tabbedContent].any scope.styles.contains ||
    scope.kind == .briefComment

/-- A group that is a signature. -/
def isSignature : Node → Bool
  | .group scope _ => scope.styles.contains .monospace
  | _ => false

/-- A group that is a signature: its text in code marks. -/
def signatureText (code : String) : String :=
  if code.isEmpty then "" else enclose "`" code

/-- A code block in its fences. -/
def codeBlock (language body : String) : Writer :=
  .block (.text ("```" ++ language ++ "\n" ++ body ++ "\n```"))

/-- A heading with its title. -/
def heading (setting : Setting) (level : Nat) (title : String) : Writer :=
  .block (.text (setting.headingMarks level ++ " " ++ title))

/-- The text of a link. -/
def linkText (target : LinkTarget) (body : String) : String :=
  match target with
  | .address url => "[" ++ body ++ "](" ++ url ++ ")"
  | .declaration _ => body

/-- The mark in front of an item of a list. -/
def itemMark (ordered : Bool) (index : Nat) : String :=
  if ordered then toString (index + 1) ++ "." else "-"

/-- The lines of a list. -/
def listText (ordered : Bool) (items : List String) : String :=
  String.join (items.mapIdx fun index item => itemMark ordered index ++ " " ++ item ++ "\n")

/-- A table with its caption, or nothing if it has no cells. -/
def tableWriter (caption : Option String) (titles : List String) (rows : List (List String)) :
    Writer :=
  let columns := columnCount (titles :: rows)
  if columns = 0 then id
  else
    let lines := Writer.text (String.intercalate "\n" (tableLines columns titles rows))
    .block <|
      match caption with
      | some caption => lines ∘ Writer.breakParagraph ∘ Writer.text caption
      | none => lines

/-- A node with the step that writes it. -/
structure Written where
  node : Node
  write : Writer

namespace Written

/-- The node on one line. -/
def inline (part : Written) : String := part.write.inline

/-- Write the nodes of a list after a signature, if one stands directly before them. Of neighbouring
signatures that only differ in their source sets the first is written, and different ones stand in
paragraphs of their own. -/
def writeAfter : Option Node → List Written → Writer
  | _, [] => id
  | signature, part :: parts =>
    if isSignature part.node then
      let compared := part.node.comparedForm
      if signature = some compared then writeAfter signature parts
      else
        writeAfter (some compared) parts ∘ part.write ∘
          (if signature.isSome then Writer.breakParagraph else id)
    else writeAfter none parts ∘ part.write

/-- Write the nodes of a list. -/
def writeAll (parts : List Written) : Writer := writeAfter none parts

end Written

/-- A variant of a row, after the names of its platforms on demand. -/
def variantWriter (setting : Setting) (hinted : Bool) (variant : UnitedVariant Written) : Writer :=
  variant.content.write ∘ (if hinted then setting.hint variant.sourceSets else id) ∘
    Writer.breakParagraph

/-- The variants of a row that share their surroundings. With several of them, or where the row asks
for it, each starts with its platforms. -/
def collapsedWriter (setting : Setting) (hinted : Bool) (row : CollapsedInstances Written) :
    Writer :=
  let hinted := setting.hasPlatforms && (hinted || 1 < row.variants.length)
  let before : Writer := (row.before.map Written.write).getD id
  let variants : Writer := fun written =>
    row.variants.foldl (fun written variant => variantWriter setting hinted variant written) written
  let after : Writer := (row.after.map fun part => part.write ∘ Writer.breakParagraph).getD id
  Writer.breakParagraph ∘ after ∘ variants ∘ before

/-- The rows of a divergent group. -/
def divergentWriter (setting : Setting) (hinted : Bool) (instances : List (Instance Written)) :
    Writer := fun written =>
  (collapse Written.node instances).foldl
    (fun written row => collapsedWriter setting hinted row written) written

mutual

def write (setting : Setting) : Node → Writer
  | .text scope body => .text (styledText scope.styles body)
  | .lineBreak _ => .text "\n"
  | .group scope children =>
    if scope.styles.contains .monospace then
      .text (signatureText (Node.group scope children).textContent)
    else if isBlock scope then .block (Written.writeAll (writtenList setting children))
    else Written.writeAll (writtenList setting children)
  | .header _ level children =>
    heading setting level (Writer.inline (Written.writeAll (writtenList setting children)))
  | .code scope language isBlock children =>
    let body := (Node.code scope language isBlock children).textContent
    if isBlock then codeBlock language body else .text (enclose "`" body)
  | .link _ target children =>
    .text (linkText target (Writer.inline (Written.writeAll (writtenList setting children))))
  | .table _ caption titles rows =>
    tableWriter ((writtenPart setting caption).map Written.inline)
      ((writtenList setting titles).map (escapeCell ·.inline))
      ((writtenRows setting rows).map fun cells => cells.map (escapeCell ·.inline))
  | .list _ ordered children =>
    .block (.text (listText ordered ((writtenList setting children).map Written.inline)))
  | .divergentGroup _ _ hinted children =>
    divergentWriter setting hinted (writtenInstances setting children)
  | .divergentInstance _ before divergent after =>
    Written.writeAll <|
      (writtenPart setting before).toList ++ (writtenPart setting divergent).toList ++
        (writtenPart setting after).toList
  | .platformHinted scope inner =>
    write setting inner ∘ (if setting.hasPlatforms then setting.hint scope.sourceSets else id)

/-- The nodes of a list with what writes them. -/
def writtenList (setting : Setting) : List Node → List Written
  | [] => []
  | head :: tail => { node := head, write := write setting head } :: writtenList setting tail

/-- An optional node with what writes it. -/
def writtenPart (setting : Setting) : Option Node → Option Written
  | none => none
  | some node => some { node, write := write setting node }

/-- The cells of rows with what writes them. A row that is no group is its only cell. -/
def writtenRows (setting : Setting) : List Node → List (List Written)
  | [] => []
  | .group _ children :: tail => writtenList setting children :: writtenRows setting tail
  | head :: tail => [{ node := head, write := write setting head }] :: writtenRows setting tail

/-- The instances in a list with what writes their parts. -/
def writtenInstances (setting : Setting) : List Node → List (Instance Written)
  | [] => []
  | .divergentInstance scope before divergent after :: tail =>
    { sourceSets := scope.sourceSets, before := writtenPart setting before
      divergent := writtenPart setting divergent, after := writtenPart setting after } ::
        writtenInstances setting tail
  | _ :: tail => writtenInstances setting tail

end

end Markdown

/-- The Markdown text of a page tree. -/
def Page.markdown (registry : Registry) (page : Page) : String :=
  Text.normalizeBlankLines <| String.join <| page.walk.map fun (depth, page) =>
    Markdown.write { registry, depth } page.content "" ++ "\n\n"

end DocPages
