import DocPages.Declaration.Equality

/-!
# Content nodes

The tree of content that a page shows, independent of any output format. Every node has a scope:
the declarations it originates from, its role, the source sets it is relevant for, and hints for
renderers.
-/

namespace DocPages

namespace Content

/-- What every node states about its content. -/
structure Scope where
  /-- The declarations that the content originates from. -/
  dris : OrderedSet Dri := {}
  kind : Kind := .main
  /-- The source sets that the content is relevant for. -/
  sourceSets : SourceSets := {}
  styles : OrderedSet Style := {}
  extras : Extras Declaration := .empty
deriving DecidableEq, Inhabited

/-- Where a link leads. -/
inductive LinkTarget where
  | declaration (dri : Dri)
  | address (url : String)
deriving DecidableEq, Inhabited

/-- A node of the content tree. -/
inductive Node where
  | text (scope : Scope) (body : String)
  | lineBreak (scope : Scope)
  | group (scope : Scope) (children : List Node)
  /-- A heading; the level starts at one. -/
  | header (scope : Scope) (level : Nat) (children : List Node)
  | code (scope : Scope) (language : String) (isBlock : Bool) (children : List Node)
  | link (scope : Scope) (target : LinkTarget) (children : List Node)
  /-- A table with the titles of its columns. -/
  | table (scope : Scope) (caption : Option Node) (titles rows : List Node)
  | list (scope : Scope) (ordered : Bool) (children : List Node)
  /-- The variants of one row. With `hinted` renderers name the source sets of each variant. -/
  | divergentGroup (scope : Scope) (groupId : String) (hinted : Bool) (children : List Node)
  /-- One variant of a row, with what stands before and after its distinguishing part. -/
  | divergentInstance (scope : Scope) (before divergent after : Option Node)
  /-- Content with an explicit list of the source sets it applies to. -/
  | platformHinted (scope : Scope) (inner : Node)

namespace Node

instance : Inhabited Node := ⟨.lineBreak {}⟩

mutual

def beq : Node → Node → Bool
  | .text scope body, .text scope' body' => scope == scope' && body == body'
  | .lineBreak scope, .lineBreak scope' => scope == scope'
  | .group scope children, .group scope' children' => scope == scope' && beqList children children'
  | .header scope level children, .header scope' level' children' =>
    scope == scope' && level == level' && beqList children children'
  | .code scope language isBlock children, .code scope' language' isBlock' children' =>
    scope == scope' && language == language' && isBlock == isBlock' && beqList children children'
  | .link scope target children, .link scope' target' children' =>
    scope == scope' && target == target' && beqList children children'
  | .table scope caption titles rows, .table scope' caption' titles' rows' =>
    scope == scope' && beqPart caption caption' && beqList titles titles' && beqList rows rows'
  | .list scope ordered children, .list scope' ordered' children' =>
    scope == scope' && ordered == ordered' && beqList children children'
  | .divergentGroup scope groupId hinted children,
    .divergentGroup scope' groupId' hinted' children' =>
    scope == scope' && groupId == groupId' && hinted == hinted' && beqList children children'
  | .divergentInstance scope before divergent after,
    .divergentInstance scope' before' divergent' after' =>
    scope == scope' && beqPart before before' && beqPart divergent divergent' &&
      beqPart after after'
  | .platformHinted scope inner, .platformHinted scope' inner' =>
    scope == scope' && beq inner inner'
  | _, _ => false

/-- Equality of lists of nodes. -/
def beqList : List Node → List Node → Bool
  | [], [] => true
  | head :: tail, head' :: tail' => beq head head' && beqList tail tail'
  | _, _ => false

def beqPart : Option Node → Option Node → Bool
  | none, none => true
  | some left, some right => beq left right
  | _, _ => false

end

mutual

theorem beq_iff : (left right : Node) → (beq left right = true ↔ left = right)
  | .text .., right | .lineBreak _, right => by cases right <;> simp [beq]
  | .group _ children, right | .header _ _ children, right | .code _ _ _ children, right
  | .link _ _ children, right | .list _ _ children, right | .divergentGroup _ _ _ children, right =>
    by cases right <;> simp [beq, beqList_iff children, and_assoc]
  | .table _ caption titles rows, right => by
    cases right <;>
      simp [beq, beqPart_iff caption, beqList_iff titles, beqList_iff rows, and_assoc]
  | .divergentInstance _ before divergent after, right => by
    cases right <;>
      simp [beq, beqPart_iff before, beqPart_iff divergent, beqPart_iff after, and_assoc]
  | .platformHinted _ inner, right => by cases right <;> simp [beq, beq_iff inner]

theorem beqList_iff : (left right : List Node) → (beqList left right = true ↔ left = right)
  | [], right => by cases right <;> simp [beqList]
  | head :: tail, right => by
    cases right <;> simp [beqList, beq_iff head, beqList_iff tail]

theorem beqPart_iff : (left right : Option Node) → (beqPart left right = true ↔ left = right)
  | none, right => by cases right <;> simp [beqPart]
  | some node, right => by cases right <;> simp [beqPart, beq_iff node]

end

instance : DecidableEq Node := fun left right =>
  decidable_of_decidable_of_iff (beq_iff left right)

end Node

/-- The form of a node. -/
inductive Shape where
  | text
  | lineBreak
  | group
  | header
  | code
  | link
  | table
  | list
  | divergentGroup
  | divergentInstance
  | platformHinted
deriving DecidableEq, Repr, Inhabited

namespace Shape

/-- The name of a form. -/
def name : Shape → String
  | .text => "Text"
  | .lineBreak => "Break"
  | .group => "Group"
  | .header => "Header"
  | .code => "Code"
  | .link => "Link"
  | .table => "Table"
  | .list => "List"
  | .divergentGroup => "DivergentGroup"
  | .divergentInstance => "DivergentInstance"
  | .platformHinted => "PlatformHinted"

def all : List Shape :=
  [.text, .lineBreak, .group, .header, .code, .link, .table, .list, .divergentGroup,
    .divergentInstance, .platformHinted]

/-- The form with a name. -/
def ofName? (name : String) : Option Shape :=
  all.find? fun shape => shape.name == name

end Shape

namespace Node

/-- The form of a node. -/
def shape : Node → Shape
  | .text .. => .text
  | .lineBreak _ => .lineBreak
  | .group .. => .group
  | .header .. => .header
  | .code .. => .code
  | .link .. => .link
  | .table .. => .table
  | .list .. => .list
  | .divergentGroup .. => .divergentGroup
  | .divergentInstance .. => .divergentInstance
  | .platformHinted .. => .platformHinted

/-- What a node states about its content. -/
def scope : Node → Scope
  | .text scope _ | .lineBreak scope | .group scope _ | .header scope _ _ | .code scope _ _ _
  | .link scope _ _ | .table scope _ _ _ | .list scope _ _ | .divergentGroup scope _ _ _
  | .divergentInstance scope _ _ _ | .platformHinted scope _ => scope

/-- The node with its scope changed. -/
def mapScope (change : Scope → Scope) : Node → Node
  | .text scope body => .text (change scope) body
  | .lineBreak scope => .lineBreak (change scope)
  | .group scope children => .group (change scope) children
  | .header scope level children => .header (change scope) level children
  | .code scope language isBlock children => .code (change scope) language isBlock children
  | .link scope target children => .link (change scope) target children
  | .table scope caption titles rows => .table (change scope) caption titles rows
  | .list scope ordered children => .list (change scope) ordered children
  | .divergentGroup scope groupId hinted children =>
    .divergentGroup (change scope) groupId hinted children
  | .divergentInstance scope before divergent after =>
    .divergentInstance (change scope) before divergent after
  | .platformHinted scope inner => .platformHinted (change scope) inner

/-- The role of a node. -/
def kind (node : Node) : Kind := node.scope.kind

/-- The source sets that a node is relevant for. -/
def sourceSets (node : Node) : SourceSets := node.scope.sourceSets

/-- The node has the style. -/
def hasStyle (node : Node) (style : Style) : Bool := node.scope.styles.contains style

/-- The node with another scope. -/
def withScope (scope : Scope) (node : Node) : Node := node.mapScope fun _ => scope

/-- The node with other styles. -/
def withStyles (styles : OrderedSet Style) (node : Node) : Node :=
  node.mapScope fun scope => { scope with styles }

/-- The node with one more style. -/
def addStyle (style : Style) (node : Node) : Node :=
  node.mapScope fun scope => { scope with styles := scope.styles.insert style }

/-- The node with other source sets. -/
def withSourceSets (sourceSets : SourceSets) (node : Node) : Node :=
  node.mapScope fun scope => { scope with sourceSets }

/-- The node with another role. -/
def withKind (kind : Kind) (node : Node) : Node :=
  node.mapScope fun scope => { scope with kind }

/-- The node with other extra properties. -/
def withExtras (extras : Extras Declaration) (node : Node) : Node :=
  node.mapScope fun scope => { scope with extras }

end Node

end Content

end DocPages
