import DocPages.Collection.Elementwise
import DocPages.Content.FromMarkup
import DocPages.Proofs.Content.Coverage
import DocPages.Proofs.Signature.Steps
import DocPages.Proofs.Text.Visible

/-!
# Texts of content

The text of a tree of content is that of its parts, joined. Markup is shown with all its texts in
their order: every node that it becomes has the scope it is placed in, up to styles, and every text
has the styles of the scope and those of the bold and italic markup around it.
-/

namespace DocPages

namespace Markup

/-! ## Parts -/

private theorem sizeOf_lt_of_mem_children {child markup : Markup}
    (isChild : child ∈ markup.children) : sizeOf child < sizeOf markup := by
  cases markup with
  | text | lineBreak => exact (List.not_mem_nil isChild).elim
  | _ =>
      have inside := List.sizeOf_lt_of_mem isChild
      simp only [children] at inside
      simp
      omega

/-- What holds of all markup if it holds of a piece whenever it holds of the parts of the piece. -/
theorem childInduction {motive : Markup → Prop}
    (step : ∀ markup, (∀ child ∈ markup.children, motive child) → motive markup)
    (markup : Markup) : motive markup :=
  step markup fun child _isChild => childInduction step child
termination_by sizeOf markup
decreasing_by exact sizeOf_lt_of_mem_children ‹_›

/-! ## Plain text -/

mutual

/-- The text of a piece of markup with some text for a line break. -/
def plainTextWith (lineBreak : String) : Markup → String
  | .text body => body
  | .lineBreak => lineBreak
  | .paragraph children | .bold children | .italic children | .codeInline children
  | .codeBlock _ children | .declarationLink _ children | .externalLink _ children
  | .unorderedList children | .listItem children | .root children =>
    plainTextListWith lineBreak children

/-- The texts of a list of markup with some text for a line break, joined. -/
def plainTextListWith (lineBreak : String) : List Markup → String
  | [] => ""
  | head :: tail => plainTextWith lineBreak head ++ plainTextListWith lineBreak tail

end

mutual

theorem plainTextWith_lineFeed : (markup : Markup) →
    markup.plainTextWith "\n" = markup.plainText
  | .text _ | .lineBreak => rfl
  | .paragraph children | .bold children | .italic children | .codeInline children
  | .codeBlock _ children | .declarationLink _ children | .externalLink _ children
  | .unorderedList children | .listItem children | .root children =>
    plainTextListWith_lineFeed children

theorem plainTextListWith_lineFeed : (markup : List Markup) →
    plainTextListWith "\n" markup = plainTextList markup
  | [] => rfl
  | head :: tail => by
    rw [plainTextListWith, plainTextWith_lineFeed head, plainTextListWith_lineFeed tail,
      plainTextList]

end

/-- The text of a piece without parts, with some text for a line break. -/
def ownText (lineBreak : String) : Markup → String
  | .text body => body
  | .lineBreak => lineBreak
  | _ => ""

theorem plainTextListWith_eq_join (lineBreak : String) (markup : List Markup) :
    plainTextListWith lineBreak markup = String.join (markup.map (plainTextWith lineBreak)) := by
  induction markup with
  | nil => rfl
  | cons head tail ih => rw [plainTextListWith, ih, List.map_cons, String.join_cons]

theorem plainTextWith_eq (lineBreak : String) (markup : Markup) :
    markup.plainTextWith lineBreak =
      markup.ownText lineBreak ++ String.join (markup.children.map (plainTextWith lineBreak)) := by
  cases markup <;> simp [plainTextWith, ownText, children, plainTextListWith_eq_join]

/-! ## Texts under other markup -/

/-- A text with the markup that it lies under, the innermost first. -/
structure Leaf where
  outer : List Markup
  body : String

mutual

/-- The texts of a piece of markup that lies under other markup. -/
def leavesUnder (outer : List Markup) (markup : Markup) : List Leaf :=
  match markup with
  | .text body => [⟨outer, body⟩]
  | .lineBreak => []
  | .paragraph children | .bold children | .italic children | .codeInline children
  | .codeBlock _ children | .declarationLink _ children | .externalLink _ children
  | .unorderedList children | .listItem children | .root children =>
    leavesUnderList (markup :: outer) children

/-- The texts of a list of markup that lies under other markup. -/
def leavesUnderList (outer : List Markup) : List Markup → List Leaf
  | [] => []
  | head :: tail => leavesUnder outer head ++ leavesUnderList outer tail

end

/-- The text that a piece of markup is itself. -/
def ownLeaf (outer : List Markup) : Markup → List Leaf
  | .text body => [⟨outer, body⟩]
  | _ => []

/-- The texts of a piece of markup in their order. -/
def leaves (markup : Markup) : List Leaf := leavesUnder [] markup

theorem leavesUnderList_eq_flatMap (outer markup : List Markup) :
    leavesUnderList outer markup = markup.flatMap (leavesUnder outer) :=
  eq_flatMap_of_cons (by rw [leavesUnderList]) (fun _ _ => by rw [leavesUnderList]) markup

theorem leavesUnder_eq (outer : List Markup) (markup : Markup) :
    markup.leavesUnder outer =
      markup.ownLeaf outer ++ markup.children.flatMap (leavesUnder (markup :: outer)) := by
  cases markup <;> simp [leavesUnder, ownLeaf, children, leavesUnderList_eq_flatMap]

/-- The style that markup gives to what lies under it. -/
def style? : Markup → Option Content.Style
  | .bold _ => some .bold
  | .italic _ => some .italic
  | _ => none

end Markup

namespace Content

open Markup

namespace Node

/-- The trees of some nodes have the texts of all nodes in their walks. -/
theorem join_ownText_flatMap_walk (nodes : List Node) :
    String.join ((nodes.flatMap walk).map ownText) = String.join (nodes.map textContent) := by
  rw [List.map_flatMap, Text.join_flatMap]
  rfl

/-- The text of a tree is that of its root and those of its children. -/
theorem textContent_eq (node : Node) :
    node.textContent = node.ownText ++ String.join (node.children.map textContent) := by
  rw [textContent, walk_eq, List.map_cons, String.join_cons, join_ownText_flatMap_walk]

theorem textContent_eq_join {node : Node} (noText : node.ownText = "") :
    node.textContent = String.join (node.children.map textContent) := by
  rw [textContent_eq, noText, String.empty_append]

end Node

/-! ## Nodes of markup -/

/-- The scope of the parts of a piece of markup. -/
def Scope.inside (scope : Scope) (markup : Markup) : Scope :=
  match markup.style? with
  | some style => scope.addStyle style
  | none => scope

theorem ofMarkupList_eq_flatMap (scope : Scope) (markup : List Markup) :
    ofMarkupList scope markup = markup.flatMap (ofMarkup scope) :=
  eq_flatMap_of_cons (by rw [ofMarkupList]) (fun _ _ => by rw [ofMarkupList]) markup

/-- The node that a piece of markup becomes itself. -/
def ownNode? (scope : Scope) (markup : Markup) : Option Node :=
  match markup with
  | .bold _ | .italic _ | .root _ => none
  | _ => (ofMarkup scope markup).head?

/-- All nodes of a piece of markup are its own and those of its parts. -/
theorem flatMap_walk_ofMarkup (scope : Scope) (markup : Markup) :
    (ofMarkup scope markup).flatMap Node.walk =
      (ownNode? scope markup).toList ++ markup.children.flatMap fun child =>
        (ofMarkup (scope.inside markup) child).flatMap Node.walk := by
  cases markup <;>
    simp [ofMarkup, ownNode?, Scope.inside, Markup.style?, Markup.children, Node.walk_eq,
      Node.children, ofMarkupList_eq_flatMap, List.flatMap_assoc]

theorem ownText_ownNode? (scope : Scope) (markup : Markup) :
    String.join ((ownNode? scope markup).toList.map Node.ownText) = markup.ownText "" := by
  cases markup <;> simp [ownNode?, ofMarkup, Node.ownText, Markup.ownText]

theorem join_textContent_ofMarkup (scope : Scope) (markup : Markup) :
    String.join ((ofMarkup scope markup).map Node.textContent) = markup.plainTextWith "" := by
  induction markup using childInduction generalizing scope with
  | step markup ih =>
      have parts : String.join ((markup.children.flatMap fun child =>
          (ofMarkup (scope.inside markup) child).flatMap Node.walk).map Node.ownText) =
            String.join (markup.children.map (plainTextWith "")) := by
        rw [List.map_flatMap, Text.join_flatMap]
        refine congrArg String.join (List.map_congr_left fun child isChild => ?_)
        exact (Node.join_ownText_flatMap_walk _).trans (ih child isChild _)
      rw [← Node.join_ownText_flatMap_walk, flatMap_walk_ofMarkup, List.map_append,
        String.join_append, ownText_ownNode?, parts, plainTextWith_eq]

/-! ## Scopes -/

/-- The scope up to its styles. -/
def Scope.withoutStyles (scope : Scope) : Scope := { scope with styles := {} }

theorem Scope.withoutStyles_inside (scope : Scope) (markup : Markup) :
    (scope.inside markup).withoutStyles = scope.withoutStyles := by
  cases markup <;> rfl

/-- All nodes of a piece of markup have the scope it is placed in, up to styles. -/
theorem withoutStyles_of_mem_walk {scope : Scope} {markup : Markup} {node : Node}
    (isNode : node ∈ (ofMarkup scope markup).flatMap Node.walk) :
    node.scope.withoutStyles = scope.withoutStyles := by
  induction markup using childInduction generalizing scope with
  | step markup ih =>
      rw [flatMap_walk_ofMarkup] at isNode
      rcases List.mem_append.mp isNode with isOwn | inPart
      · cases markup <;> simp [ownNode?, ofMarkup] at isOwn <;> subst isOwn <;> rfl
      · obtain ⟨child, isChild, inChild⟩ := List.mem_flatMap.mp inPart
        exact (ih child isChild inChild).trans (scope.withoutStyles_inside markup)

theorem sourceSets_of_mem_walk {scope : Scope} {markup : Markup} {node : Node}
    (isNode : node ∈ (ofMarkup scope markup).flatMap Node.walk) :
    node.sourceSets = scope.sourceSets :=
  (congrArg Scope.sourceSets (withoutStyles_of_mem_walk isNode) :)

/-- The styles are some given ones and those of the markup around. -/
def StylesUnder (outer : List Markup) (given styles : OrderedSet Style) : Prop :=
  ∀ style, style ∈ styles.toList ↔
    style ∈ given.toList ∨ ∃ markup ∈ outer, markup.style? = some style

theorem StylesUnder.inside {outer : List Markup} {given : OrderedSet Style} {scope : Scope}
    (under : StylesUnder outer given scope.styles) (markup : Markup) :
    StylesUnder (markup :: outer) given (scope.inside markup).styles := by
  intro style
  have before := under style
  rw [List.exists_mem_cons_iff, Scope.inside]
  cases markup.style? <;> simp [Scope.addStyle, OrderedSet.insert, before, eq_comm]
  tauto

/-- The node is the text of a leaf, in a scope with some given styles and those of the markup around
the leaf. -/
def IsTextOf (given : OrderedSet Style) (leaf : Leaf) (node : Node) : Prop :=
  ∃ scope, node = .text scope leaf.body ∧ StylesUnder leaf.outer given scope.styles

theorem texts_ofMarkup {outer : List Markup} {given : OrderedSet Style} {scope : Scope}
    (under : StylesUnder outer given scope.styles) (markup : Markup) :
    List.Forall₂ (IsTextOf given) (markup.leavesUnder outer)
      (((ofMarkup scope markup).flatMap Node.walk).filter (·.shape = .text)) := by
  induction markup using childInduction generalizing outer scope with
  | step markup ih =>
      have own : List.Forall₂ (IsTextOf given) (markup.ownLeaf outer)
          ((ownNode? scope markup).toList.filter (·.shape = .text)) := by
        cases markup with
        | text body => exact .cons ⟨scope, rfl, under⟩ .nil
        | _ => exact .nil
      have parts := forall₂_flatMap fun child isChild => ih child isChild (under.inside markup)
      rw [leavesUnder_eq, flatMap_walk_ofMarkup, List.filter_append, List.filter_flatMap]
      exact List.rel_append own parts

/-- The nodes of a piece of markup have its text but for line breaks. All of them have the scope it
is placed in, up to styles, so that they claim no source set that is not covered. Every text has
the styles of the scope, bold if it lies under bold markup, italic if it lies under italic markup,
and no others. -/
theorem text_scope_styles_ofMarkup (scope : Scope) (markup : Markup) :
    let nodes := ofMarkup scope markup
    (markup.plainTextWith "\n" = markup.plainText ∧
        String.join (nodes.map Node.textContent) = markup.plainTextWith "") ∧
      (∀ node ∈ nodes.flatMap Node.walk, node.scope.withoutStyles = scope.withoutStyles) ∧
      (∀ node ∈ nodes, node.coverageGaps = []) ∧
      List.Forall₂ (IsTextOf scope.styles) markup.leaves
        ((nodes.flatMap Node.walk).filter (·.shape = .text)) := by
  have noOuter : StylesUnder [] scope.styles scope.styles := fun style => by simp
  refine ⟨⟨plainTextWith_lineFeed markup, join_textContent_ofMarkup scope markup⟩,
    fun node => withoutStyles_of_mem_walk, fun node isNode => ?_, texts_ofMarkup noOuter markup⟩
  exact Node.coverageGaps_eq_nil_of_walk fun part isPart =>
    sourceSets_of_mem_walk (List.mem_flatMap_of_mem isNode isPart)

/-- Bold text around a line break, with a part in italics, and code behind it. -/
example :
    let markup : Markup := .paragraph
      [.bold [.text "box", .lineBreak, .italic [.text "es"]], .codeInline [.text "open"]]
    String.join ((ofMarkup {} markup).map Node.textContent) = "boxesopen" ∧
      ((ofMarkup {} markup).flatMap Node.walk).filter (·.shape = .text) =
        [.text { styles := ⟨[.bold]⟩ } "box", .text { styles := ⟨[.bold, .italic]⟩ } "es",
          .text {} "open"] := by
  decide +kernel

end Content

end DocPages
