import Mathlib.Logic.Relation
import DocPages.Proofs.Content.Variants

/-!
# Rewritten content

A walk and a rewriting reach the same nodes: those that stand in a tree, be it as the caption of a
table or as a part of a variant. So if every node is rewritten by itself, with its children left
where they are, then the walk through the rewritten tree shows the rewritten nodes one by one.
-/

namespace DocPages

namespace Content

namespace Node

/-! ## What stands in a node -/

/-- The first node stands directly in the second. -/
inductive StandsIn : Node → Node → Prop
  | group {scope : Scope} {children : List Node} {child : Node} (member : child ∈ children) :
      StandsIn child (.group scope children)
  | header {scope : Scope} {level : Nat} {children : List Node} {child : Node}
      (member : child ∈ children) : StandsIn child (.header scope level children)
  | code {scope : Scope} {language : String} {isBlock : Bool} {children : List Node} {child : Node}
      (member : child ∈ children) : StandsIn child (.code scope language isBlock children)
  | link {scope : Scope} {target : LinkTarget} {children : List Node} {child : Node}
      (member : child ∈ children) : StandsIn child (.link scope target children)
  | caption {scope : Scope} {caption : Node} {titles rows : List Node} :
      StandsIn caption (.table scope (some caption) titles rows)
  | title {scope : Scope} {caption : Option Node} {titles rows : List Node} {title : Node}
      (member : title ∈ titles) : StandsIn title (.table scope caption titles rows)
  | row {scope : Scope} {caption : Option Node} {titles rows : List Node} {row : Node}
      (member : row ∈ rows) : StandsIn row (.table scope caption titles rows)
  | list {scope : Scope} {ordered : Bool} {children : List Node} {child : Node}
      (member : child ∈ children) : StandsIn child (.list scope ordered children)
  | variant {scope : Scope} {groupId : String} {hinted : Bool} {children : List Node} {child : Node}
      (member : child ∈ children) : StandsIn child (.divergentGroup scope groupId hinted children)
  | before {scope : Scope} {before : Node} {divergent after : Option Node} :
      StandsIn before (.divergentInstance scope (some before) divergent after)
  | divergent {scope : Scope} {divergent : Node} {before after : Option Node} :
      StandsIn divergent (.divergentInstance scope before (some divergent) after)
  | after {scope : Scope} {after : Node} {before divergent : Option Node} :
      StandsIn after (.divergentInstance scope before divergent (some after))
  | hinted {scope : Scope} {inner : Node} : StandsIn inner (.platformHinted scope inner)

theorem mem_children_iff {child node : Node} : child ∈ node.children ↔ child.StandsIn node := by
  constructor
  · intro member
    cases node with
    | text | lineBreak => exact (List.not_mem_nil member).elim
    | group => exact .group member
    | header => exact .header member
    | code => exact .code member
    | link => exact .link member
    | list => exact .list member
    | divergentGroup => exact .variant member
    | table scope caption titles rows =>
        simp only [children, List.mem_append, Option.mem_toList] at member
        rcases member with (rfl | isTitle) | isRow
        · exact .caption
        · exact .title isTitle
        · exact .row isRow
    | divergentInstance scope before divergent after =>
        simp only [children, List.mem_append, Option.mem_toList] at member
        rcases member with (rfl | rfl) | rfl
        · exact .before
        · exact .divergent
        · exact .after
    | platformHinted scope inner =>
        obtain rfl := List.mem_singleton.mp member
        exact .hinted
  · intro stands
    cases stands <;> simp_all [children]

/-- The walk through a tree visits what stands in it, however deep. -/
theorem mem_walk_iff {part node : Node} :
    part ∈ node.walk ↔ Relation.ReflTransGen StandsIn part node := by
  induction node using childInduction with
  | step node ih =>
      rw [walk_eq, List.mem_cons, List.mem_flatMap, Relation.ReflTransGen.cases_tail_iff]
      refine or_congr eq_comm (exists_congr fun child => ?_)
      rw [and_comm, mem_children_iff]
      exact and_congr_left fun stands => ih child (mem_children_iff.mpr stands)

/-- Two changes make the same of a node exactly if they do so with everything directly in it. -/
theorem mapChildren_eq_iff {first second : Node → Node} {node : Node} :
    node.mapChildren first = node.mapChildren second ↔
      ∀ child : Node, child.StandsIn node → first child = second child := by
  simp only [← mem_children_iff]
  refine ⟨fun same => ?_, mapChildren_congr⟩
  rw [← List.map_inj_left, ← children_mapChildren, same, children_mapChildren]

/-! ## Changes of what a node holds itself -/

/-- What a node holds itself: the node without its children. Hinted content always has one, which
becomes a blank. -/
def bare : Node → Node
  | .text scope body => .text scope body
  | .lineBreak scope => .lineBreak scope
  | .group scope _ => .group scope []
  | .header scope level _ => .header scope level []
  | .code scope language isBlock _ => .code scope language isBlock []
  | .link scope target _ => .link scope target []
  | .table scope _ _ _ => .table scope none [] []
  | .list scope ordered _ => .list scope ordered []
  | .divergentGroup scope groupId hinted _ => .divergentGroup scope groupId hinted []
  | .divergentInstance scope _ _ _ => .divergentInstance scope none none none
  | .platformHinted scope _ => .platformHinted scope (.lineBreak {})

theorem bare_mapChildren (change : Node → Node) (node : Node) :
    (node.mapChildren change).bare = node.bare := by
  cases node <;> rfl

theorem bare_mapScope (change : Scope → Scope) (node : Node) :
    (node.mapScope change).bare = node.bare.mapScope change := by
  cases node <;> rfl

/-- The change keeps the children of a node. What else it makes of the node depends on what the node
holds itself. -/
structure ChangesItself (change : Node → Node) : Prop where
  children : ∀ node, (change node).children = node.children
  bare : ∃ rewrite : Node → Node, ∀ node, (change node).bare = rewrite node.bare

/-- Changes of the scope alone are changes of the node itself. -/
theorem changesItself_mapScope (change : Scope → Scope) : ChangesItself (mapScope change) where
  children node := by cases node <;> rfl
  bare := ⟨mapScope change, bare_mapScope change⟩

namespace ChangesItself

variable {change : Node → Node} (itself : ChangesItself change)

include itself

/-- The change of the nodes of one form. -/
theorem onShape (shape : Shape) :
    ChangesItself fun node => if node.shape = shape then change node else node where
  children node := by
    split
    · exact itself.children node
    · rfl
  bare := by
    have shape_bare : ∀ node : Node, node.bare.shape = node.shape := fun node => by
      cases node <;> rfl
    obtain ⟨rewrite, rewrites⟩ := itself.bare
    refine ⟨fun own => if own.shape = shape then rewrite own else own, fun node => ?_⟩
    simp only [shape_bare]
    split
    · exact rewrites node
    · rfl

/-- The walk shows the change of every node. -/
theorem map_bare_walk_mapAll (node : Node) :
    (node.mapAll change).walk.map Node.bare = node.walk.map fun part => (change part).bare := by
  obtain ⟨rewrite, rewrites⟩ := itself.bare
  rw [walk_mapAll_of_keeps itself.children, List.map_map]
  refine List.map_congr_left fun part _ => ?_
  rw [Function.comp_apply, mapAll_eq, rewrites, bare_mapChildren, rewrites]

end ChangesItself

/-- A rewriting changes each node that the walk visits and that is selected, and no other: whatever
stands in a tree, in any part of any node, is visited, is a child of the node it stands in and is
changed with the children of that node. -/
theorem walk_rewritten {change : Node → Node} (itself : ChangesItself change)
    (shape : Shape) (node : Node) :
    (node.mapShape shape change).walk.map bare =
        (node.walk.map fun part => if part.shape = shape then (change part).bare else part.bare) ∧
      (node.mapAll change).walk.map bare = (node.walk.map fun part => (change part).bare) ∧
      node.mapShape shape id = node ∧
      node.walk = node :: node.children.flatMap walk ∧
      (∀ part, part ∈ node.walk ↔ Relation.ReflTransGen StandsIn part node) ∧
      (∀ child, child ∈ node.children ↔ child.StandsIn node) ∧
      (∀ inner, (node.mapChildren inner).children = node.children.map inner) ∧
      ∀ first second, node.mapChildren first = node.mapChildren second ↔
        ∀ child : Node, child.StandsIn node → first child = second child := by
  refine ⟨?_, itself.map_bare_walk_mapAll node, mapAll_eq_self (fun _ => ite_self _) node,
    walk_eq node, fun _ => mem_walk_iff, fun _ => mem_children_iff,
    fun inner => children_mapChildren inner node, fun _ _ => mapChildren_eq_iff⟩
  rw [mapShape, (itself.onShape shape).map_bare_walk_mapAll]
  refine List.map_congr_left fun part _ => ?_
  exact apply_ite bare _ _ _

/-- A table with a caption, a titled column and a row with one variant. -/
def captionedTable : Node :=
  .table {} (some (.text {} "Members")) [.group {} [.text {} "Name"]]
    [.group { kind := .functions } [.divergentGroup {} "open" true
      [.divergentInstance {} none (some (.platformHinted {} (.text {} "fun open()"))) none]]]

/-- Texts in bold print stand in the caption, in the column title and in the variant of the row. -/
theorem walk_rewritten_captionedTable :
    ChangesItself (addStyle .bold) ∧
      (captionedTable.mapShape .text (addStyle .bold)).walk.map bare =
        [.table {} none [] [], .text { styles := .singleton .bold } "Members", .group {} [],
          .text { styles := .singleton .bold } "Name", .group { kind := .functions } [],
          .divergentGroup {} "open" true [], .divergentInstance {} none none none,
          .platformHinted {} (.lineBreak {}),
          .text { styles := .singleton .bold } "fun open()"] := by
  have itself : ChangesItself (addStyle .bold) := changesItself_mapScope _
  refine ⟨itself, ?_⟩
  rw [(walk_rewritten itself .text captionedTable).1]
  rfl

end Node

end Content

end DocPages
