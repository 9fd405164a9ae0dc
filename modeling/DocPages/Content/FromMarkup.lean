import DocPages.Content.Node

/-!
# Content of comment markup

The nodes that show a piece of markup. Bold and italic markup becomes a style of the nodes inside
it, a root is replaced by its parts, and every other piece becomes a node of its own. All nodes keep
the declarations, role, source sets and extra properties of the scope they are placed in.
-/

namespace DocPages

namespace Content

/-- The scope with one more style. -/
def Scope.addStyle (style : Style) (scope : Scope) : Scope :=
  { scope with styles := scope.styles.insert style }

mutual

/-- The nodes of a piece of markup in a scope. -/
def ofMarkup (scope : Scope) : Markup → List Node
  | .text body => [.text scope body]
  | .lineBreak => [.lineBreak scope]
  | .paragraph children => [.group (scope.addStyle .paragraph) (ofMarkupList scope children)]
  | .bold children => ofMarkupList (scope.addStyle .bold) children
  | .italic children => ofMarkupList (scope.addStyle .italic) children
  | .codeInline children => [.code scope "" false (ofMarkupList scope children)]
  | .codeBlock language children =>
    [.code scope (language.getD "") true (ofMarkupList scope children)]
  | .declarationLink dri children => [.link scope (.declaration dri) (ofMarkupList scope children)]
  | .externalLink href children => [.link scope (.address href) (ofMarkupList scope children)]
  | .unorderedList children => [.list scope false (ofMarkupList scope children)]
  | .listItem children => [.group scope (ofMarkupList scope children)]
  | .root children => ofMarkupList scope children

/-- The nodes of a list of markup in a scope. -/
def ofMarkupList (scope : Scope) : List Markup → List Node
  | [] => []
  | head :: tail => ofMarkup scope head ++ ofMarkupList scope tail

end

end Content

end DocPages
