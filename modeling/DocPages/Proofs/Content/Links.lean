import DocPages.Collection.Elementwise
import DocPages.Content.Traversal

/-!
# Links in content

The declarations that a tree of content links to are those of the node itself and of its children.
Changes of the nodes that keep both keep the links of the whole tree.
-/

namespace DocPages

namespace Content

namespace Node

theorem walkList_eq (nodes : List Node) : walkList nodes = nodes.flatMap walk :=
  eq_flatMap_of_cons (by rw [walkList]) (fun _ _ => by rw [walkList]) nodes

theorem walkPart_eq (part : Option Node) : walkPart part = part.toList.flatMap walk := by
  cases part <;> simp [walkPart]

/-- The walk visits a node and then its children. -/
theorem walk_eq (node : Node) : node.walk = node :: node.children.flatMap walk := by
  cases node <;> simp [walk, children, walkList_eq, walkPart_eq]

private theorem length_walk_lt {child node : Node} (member : child ∈ node.children) :
    child.walk.length < node.walk.length := by
  have visited : child.walk.Sublist (node.children.map walk).flatten :=
    List.sublist_flatten_of_mem (List.mem_map_of_mem member)
  rw [walk_eq node, List.length_cons, List.flatMap_def]
  exact Nat.lt_succ_of_le visited.length_le

/-- What holds of every node if it holds of a node whenever it holds of its children. -/
theorem childInduction {motive : Node → Prop}
    (step : ∀ node, (∀ child ∈ node.children, motive child) → motive node) (node : Node) :
    motive node :=
  step node fun child _member => childInduction step child
termination_by node.walk.length
decreasing_by exact length_walk_lt ‹_›

/-- The declaration that the node itself links to. -/
def linkedDri? : Node → Option Dri
  | .link _ (.declaration dri) _ => some dri
  | _ => none

/-- The declarations that a tree links to, in the order of the walk. -/
def links (node : Node) : List Dri := node.walk.filterMap linkedDri?

/-- The declarations that the trees of a list link to. -/
def linksOf (nodes : List Node) : List Dri := nodes.flatMap links

@[simp] theorem linksOf_nil : linksOf [] = [] := rfl

@[simp] theorem linksOf_cons (head : Node) (tail : List Node) :
    linksOf (head :: tail) = head.links ++ linksOf tail := rfl

@[simp] theorem linksOf_append (left right : List Node) :
    linksOf (left ++ right) = linksOf left ++ linksOf right := List.flatMap_append

/-- A tree links to the declaration of its root and to those of its children. -/
theorem links_eq (node : Node) : node.links = node.linkedDri?.toList ++ linksOf node.children := by
  rw [links, walk_eq, List.filterMap_cons, linksOf, List.filterMap_flatMap]
  cases node.linkedDri? <;> rfl

/-! ## Changed nodes -/

theorem children_mapChildren (change : Node → Node) (node : Node) :
    (node.mapChildren change).children = node.children.map change := by
  cases node <;> simp [mapChildren, children, Option.toList_map]

theorem linkedDri?_mapChildren (change : Node → Node) (node : Node) :
    (node.mapChildren change).linkedDri? = node.linkedDri? := by
  cases node with
  | link _ target _ => cases target <;> rfl
  | _ => rfl

/-- Changes that agree on the children of a node change it in the same way. -/
theorem mapChildren_congr {first second : Node → Node} {node : Node}
    (agree : ∀ child ∈ node.children, first child = second child) :
    node.mapChildren first = node.mapChildren second := by
  have list : ∀ nodes : List Node, (∀ child ∈ nodes, first child = second child) →
      nodes.map first = nodes.map second := fun nodes => List.map_congr_left
  have part : ∀ part : Option Node, (∀ child ∈ part.toList, first child = second child) →
      part.map first = part.map second := fun part same => by
    cases part with
    | none => rfl
    | some child =>
        rw [Option.map_some, Option.map_some, same child (List.mem_singleton_self child)]
  cases node with
  | text | lineBreak => rfl
  | group scope nodes | header scope level nodes | code scope language isBlock nodes
  | link scope target nodes | list scope ordered nodes
  | divergentGroup scope groupId hinted nodes =>
      rw [mapChildren, mapChildren, list nodes agree]
  | table scope caption titles rows =>
      simp only [children, List.forall_mem_append] at agree
      rw [mapChildren, mapChildren, part caption agree.1.1, list titles agree.1.2,
        list rows agree.2]
  | divergentInstance scope before divergent after =>
      simp only [children, List.forall_mem_append] at agree
      rw [mapChildren, mapChildren, part before agree.1.1, part divergent agree.1.2,
        part after agree.2]
  | platformHinted scope inner =>
      rw [mapChildren, mapChildren, agree inner (List.mem_singleton_self inner)]

theorem mapChildren_mapChildren (first second : Node → Node) (node : Node) :
    (node.mapChildren first).mapChildren second = node.mapChildren (second ∘ first) := by
  cases node <;> simp [mapChildren]

/-- A node is not changed if none of its children is. -/
theorem mapChildren_eq_self {change : Node → Node} {node : Node}
    (fixes : ∀ child ∈ node.children, change child = child) : node.mapChildren change = node := by
  have same : node.mapChildren change = node.mapChildren id := mapChildren_congr fixes
  rw [same]
  cases node <;> simp [mapChildren]

/-- A change that leaves every node as it is leaves every tree as it is. -/
theorem mapAll_eq_self {change : Node → Node} (fixes : ∀ node, change node = node) (node : Node) :
    node.mapAll change = node := by
  induction node using childInduction with
  | step node ih => rw [mapAll_eq, fixes, mapChildren_eq_self ih]

section

variable {change : Node → Node} (keeps : ∀ node, (change node).children = node.children)

include keeps

/-- Changes that keep the children of every node change the children of a tree in their places. -/
theorem children_mapAll_of_keeps (node : Node) :
    (node.mapAll change).children = node.children.map (mapAll change) := by
  rw [mapAll_eq, keeps, children_mapChildren]

/-- Changes that keep the children of every node change what the walk visits one by one. -/
theorem walk_mapAll_of_keeps (node : Node) :
    (node.mapAll change).walk = node.walk.map (mapAll change) := by
  induction node using childInduction with
  | step node ih =>
      rw [walk_eq, walk_eq node, children_mapAll_of_keeps keeps, List.map_cons, List.map_flatMap,
        List.flatMap_map, List.flatMap_def, List.flatMap_def]
      exact congrArg (_ :: List.flatten ·) (List.map_congr_left ih)

end

/-- A change of the nodes that keeps the links of each keeps the links of a tree. -/
theorem links_mapAll {change : Node → Node} (keeps : ∀ node, (change node).links = node.links)
    (node : Node) : (node.mapAll change).links = node.links := by
  induction node using childInduction with
  | step node ih =>
      rw [mapAll_eq, keeps, links_eq, links_eq node, linkedDri?_mapChildren, children_mapChildren]
      congr 1
      rw [linksOf, linksOf, List.flatMap_def, List.flatMap_def, List.map_map]
      exact congrArg List.flatten (List.map_congr_left ih)

end Node

end Content

end DocPages
