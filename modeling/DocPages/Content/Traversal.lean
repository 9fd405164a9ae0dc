import DocPages.Collection.Elementwise
import DocPages.Content.Node
import DocPages.Declaration.Normal
import DocPages.Text.Blank

/-!
# Visiting and changing content

The direct children of a node in render order, the walk through a whole tree, and changes from the
leaves to the root. Reading and changing visit the same nodes: the caption, header and rows of a
table, the parts of a variant, and the inner node of hinted content are children.
-/

namespace DocPages

namespace Content

namespace Node

/-- The direct children in render order. -/
def children : Node → List Node
  | .text .. | .lineBreak _ => []
  | .group _ children | .header _ _ children | .code _ _ _ children | .link _ _ children
  | .list _ _ children | .divergentGroup _ _ _ children => children
  | .table _ caption titles rows => caption.toList ++ titles ++ rows
  | .divergentInstance _ before divergent after =>
    before.toList ++ divergent.toList ++ after.toList
  | .platformHinted _ inner => [inner]

/-- The node with every direct child replaced by its image. -/
def mapChildren (change : Node → Node) : Node → Node
  | .text scope body => .text scope body
  | .lineBreak scope => .lineBreak scope
  | .group scope children => .group scope (children.map change)
  | .header scope level children => .header scope level (children.map change)
  | .code scope language isBlock children => .code scope language isBlock (children.map change)
  | .link scope target children => .link scope target (children.map change)
  | .table scope caption titles rows =>
    .table scope (caption.map change) (titles.map change) (rows.map change)
  | .list scope ordered children => .list scope ordered (children.map change)
  | .divergentGroup scope groupId hinted children =>
    .divergentGroup scope groupId hinted (children.map change)
  | .divergentInstance scope before divergent after =>
    .divergentInstance scope (before.map change) (divergent.map change) (after.map change)
  | .platformHinted scope inner => .platformHinted scope (change inner)

mutual

/-- The node and all nodes below it, a node before its children. -/
def walk : Node → List Node
  | .text scope body => [.text scope body]
  | .lineBreak scope => [.lineBreak scope]
  | .group scope children => .group scope children :: walkList children
  | .header scope level children => .header scope level children :: walkList children
  | .code scope language isBlock children =>
    .code scope language isBlock children :: walkList children
  | .link scope target children => .link scope target children :: walkList children
  | .table scope caption titles rows =>
    .table scope caption titles rows :: (walkPart caption ++ walkList titles ++ walkList rows)
  | .list scope ordered children => .list scope ordered children :: walkList children
  | .divergentGroup scope groupId hinted children =>
    .divergentGroup scope groupId hinted children :: walkList children
  | .divergentInstance scope before divergent after =>
    .divergentInstance scope before divergent after ::
      (walkPart before ++ walkPart divergent ++ walkPart after)
  | .platformHinted scope inner => .platformHinted scope inner :: walk inner

/-- The walks through the nodes of a list, joined. -/
def walkList : List Node → List Node
  | [] => []
  | head :: tail => walk head ++ walkList tail

/-- The walk through an optional node. -/
def walkPart : Option Node → List Node
  | none => []
  | some node => walk node

end

mutual

/-- The tree with every node changed, a node after its children. -/
def mapAll (change : Node → Node) : Node → Node
  | .text scope body => change (.text scope body)
  | .lineBreak scope => change (.lineBreak scope)
  | .group scope children => change (.group scope (mapAllList change children))
  | .header scope level children => change (.header scope level (mapAllList change children))
  | .code scope language isBlock children =>
    change (.code scope language isBlock (mapAllList change children))
  | .link scope target children => change (.link scope target (mapAllList change children))
  | .table scope caption titles rows =>
    change (.table scope (mapAllPart change caption) (mapAllList change titles)
      (mapAllList change rows))
  | .list scope ordered children => change (.list scope ordered (mapAllList change children))
  | .divergentGroup scope groupId hinted children =>
    change (.divergentGroup scope groupId hinted (mapAllList change children))
  | .divergentInstance scope before divergent after =>
    change (.divergentInstance scope (mapAllPart change before) (mapAllPart change divergent)
      (mapAllPart change after))
  | .platformHinted scope inner => change (.platformHinted scope (mapAll change inner))

/-- The trees of a list with every node changed. -/
def mapAllList (change : Node → Node) : List Node → List Node
  | [] => []
  | head :: tail => mapAll change head :: mapAllList change tail

/-- An optional tree with every node changed. -/
def mapAllPart (change : Node → Node) : Option Node → Option Node
  | none => none
  | some node => some (mapAll change node)

end

theorem mapAllList_eq_map (change : Node → Node) (nodes : List Node) :
    mapAllList change nodes = nodes.map (mapAll change) :=
  eq_map_of_cons (by rw [mapAllList]) (fun _ _ => by rw [mapAllList]) nodes

theorem mapAllPart_eq_map (change : Node → Node) (part : Option Node) :
    mapAllPart change part = part.map (mapAll change) := by
  cases part <;> simp [mapAllPart]

theorem mapAll_eq (change : Node → Node) (node : Node) :
    mapAll change node = change (node.mapChildren (mapAll change)) := by
  cases node <;> simp [mapAll, mapChildren, mapAllList_eq_map, mapAllPart_eq_map]

/-- The tree with every node of a form changed, a node after its children. -/
def mapShape (shape : Shape) (change : Node → Node) : Node → Node :=
  mapAll fun node => if node.shape = shape then change node else node

/-- The text of a node that is a text itself. -/
def ownText : Node → String
  | .text _ body => body
  | _ => ""

/-- The texts of a tree in render order, joined. -/
def textContent (node : Node) : String :=
  String.join (node.walk.map ownText)

/-- The tree has a text that is not blank. -/
def hasAnyContent (node : Node) : Bool :=
  node.walk.any fun part => !Text.isAllBlank part.ownText

/-- The tree without its source sets. -/
def withoutSourceSets : Node → Node :=
  mapAll (withSourceSets {})

/-- The tree with the marks among its extra properties in ascending order. -/
def normal : Node → Node :=
  mapAll fun node => node.withExtras node.scope.extras.normal

/-- Two trees are equal up to the order of marks. -/
def agrees (left right : Node) : Bool := left.normal == right.normal

/-- What trees are compared by that may differ in where they apply: equal for two trees that agree
without their source sets. -/
def comparedForm (node : Node) : Node := node.withoutSourceSets.normal

end Node

end Content

end DocPages
