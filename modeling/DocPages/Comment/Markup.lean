import DocPages.Declaration.Identity
import DocPages.Text.Blank
import DocPages.Text.Splitting

/-!
# Comment markup

The marked-up text of a documentation comment, its plain text, and the parts of it that stand for
the whole in a table.
-/

namespace DocPages

/-- A piece of marked-up text. -/
inductive Markup where
  | text (body : String)
  | paragraph (children : List Markup)
  | bold (children : List Markup)
  | italic (children : List Markup)
  | codeInline (children : List Markup)
  | codeBlock (language : Option String) (children : List Markup)
  /-- A link to a declaration. -/
  | declarationLink (dri : Dri) (children : List Markup)
  /-- A link to an address. -/
  | externalLink (href : String) (children : List Markup)
  | unorderedList (children : List Markup)
  | listItem (children : List Markup)
  | lineBreak
  /-- A root around several blocks. -/
  | root (children : List Markup)

namespace Markup

instance : Inhabited Markup := ⟨.lineBreak⟩

mutual

def beq : Markup → Markup → Bool
  | .text body, .text body' => body == body'
  | .paragraph children, .paragraph children'
  | .bold children, .bold children'
  | .italic children, .italic children'
  | .codeInline children, .codeInline children'
  | .unorderedList children, .unorderedList children'
  | .listItem children, .listItem children'
  | .root children, .root children' => beqList children children'
  | .codeBlock language children, .codeBlock language' children' =>
    language == language' && beqList children children'
  | .declarationLink dri children, .declarationLink dri' children' =>
    dri == dri' && beqList children children'
  | .externalLink href children, .externalLink href' children' =>
    href == href' && beqList children children'
  | .lineBreak, .lineBreak => true
  | _, _ => false

/-- Equality of lists of markup. -/
def beqList : List Markup → List Markup → Bool
  | [], [] => true
  | head :: tail, head' :: tail' => beq head head' && beqList tail tail'
  | _, _ => false

end

mutual

theorem beq_iff : (left right : Markup) → (beq left right = true ↔ left = right)
  | .text _, right | .lineBreak, right => by cases right <;> simp [beq]
  | .paragraph children, right | .bold children, right | .italic children, right
  | .codeInline children, right | .codeBlock _ children, right
  | .declarationLink _ children, right | .externalLink _ children, right
  | .unorderedList children, right | .listItem children, right | .root children, right => by
    cases right <;> simp [beq, beqList_iff children]

theorem beqList_iff : (left right : List Markup) → (beqList left right = true ↔ left = right)
  | [], right => by cases right <;> simp [beqList]
  | head :: tail, right => by
    cases right <;> simp [beqList, beq_iff head, beqList_iff tail]

end

instance : DecidableEq Markup := fun left right =>
  decidable_of_decidable_of_iff (beq_iff left right)

/-- The direct parts of a piece of markup. -/
def children : Markup → List Markup
  | .text _ | .lineBreak => []
  | .paragraph children | .bold children | .italic children | .codeInline children
  | .codeBlock _ children | .declarationLink _ children | .externalLink _ children
  | .unorderedList children | .listItem children | .root children => children

mutual

/-- The text of a piece of markup, a line break as a line feed. -/
def plainText : Markup → String
  | .text body => body
  | .lineBreak => "\n"
  | .paragraph children | .bold children | .italic children | .codeInline children
  | .codeBlock _ children | .declarationLink _ children | .externalLink _ children
  | .unorderedList children | .listItem children | .root children => plainTextList children

/-- The texts of a list of markup, joined. -/
def plainTextList : List Markup → String
  | [] => ""
  | head :: tail => plainText head ++ plainTextList tail

end

/-- A text of blanks only. -/
def isBlankText : Markup → Bool
  | .text body => Text.isAllBlank body
  | _ => false

/-- The first block: under a root the first part that is not a blank text, and otherwise, or if
there is no such part, the markup itself. -/
def firstParagraph : Markup → Markup
  | .root children => (children.find? fun child => !child.isBlankText).getD (.root children)
  | markup => markup

/-- A paragraph of the first sentence of the first block, which ends with the first full stop that
a space follows. -/
def firstSentence (markup : Markup) : Markup :=
  let text := markup.firstParagraph.plainText
  .paragraph [.text (Text.trim (String.ofList (Text.firstSentenceCharacters text.toList)))]

end Markup

end DocPages
