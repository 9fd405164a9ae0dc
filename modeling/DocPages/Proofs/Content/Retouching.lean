import Mathlib.Data.List.Forall2
import DocPages.Content.Coverage
import DocPages.Proofs.Collection.OrderedSet
import DocPages.Proofs.Content.Variants

/-!
# Retouched content

The passes over finished pages retouch their content: texts and addresses may read differently, and
brief comments may become blocks. Everything else about a node stays, and so does the form of the
tree. A change that looks at the node alone, whatever becomes of its children, can be made for a
whole tree in one go with others of its kind.
-/

namespace DocPages

namespace Content

/-- Styles in one place of the order are equal. -/
instance : Std.LawfulEqOrd Style where
  eq_of_compare {left right} equal := by
    have compared : compare left.ctorIdx right.ctorIdx = .eq := equal
    have sameIndex : left.ctorIdx = right.ctorIdx := Std.LawfulEqCmp.eq_of_compare compared
    rw [← Style.ofNat_ctorIdx left, sameIndex, Style.ofNat_ctorIdx]

namespace Node

/-! ## Changes of single nodes -/

/-- The change of a node is the same whatever its children become. -/
def IgnoresChildren (change : Node → Node) : Prop :=
  ∀ (inner : Node → Node) (node : Node),
    change (node.mapChildren inner) = (change node).mapChildren inner

/-- Two changes of all nodes of a tree are made in one go. -/
theorem mapAll_mapAll (outer : Node → Node) {inner : Node → Node}
    (innerIgnores : IgnoresChildren inner) (node : Node) :
    (node.mapAll inner).mapAll outer = node.mapAll (outer ∘ inner) := by
  induction node using childInduction with
  | step node ih =>
      have below : node.mapChildren (mapAll outer ∘ mapAll inner) =
          node.mapChildren (mapAll (outer ∘ inner)) := mapChildren_congr ih
      calc (node.mapAll inner).mapAll outer
          = outer ((inner (node.mapChildren (mapAll inner))).mapChildren (mapAll outer)) := by
            rw [mapAll_eq, mapAll_eq inner]
        _ = outer (inner (node.mapChildren (mapAll outer ∘ mapAll inner))) := by
            rw [← innerIgnores, mapChildren_mapChildren]
        _ = outer (inner (node.mapChildren (mapAll (outer ∘ inner)))) := by
            rw [below]
        _ = node.mapAll (outer ∘ inner) := (mapAll_eq (outer ∘ inner) node).symm

/-- What may become of a node itself. -/
inductive RetouchedHere : Node → Node → Prop
  | kept (node : Node) : RetouchedHere node node
  | text (scope : Scope) (before after : String) :
      RetouchedHere (.text scope before) (.text scope after)
  | address (scope : Scope) (before after : String) (children : List Node) :
      RetouchedHere (.link scope (.address before) children) (.link scope (.address after) children)
  | briefComment {scope : Scope} (isBrief : scope.kind = .briefComment) (children : List Node) :
      RetouchedHere (.group scope children)
        (.group { scope with styles := scope.styles.insert .block } children)

namespace RetouchedHere

variable {before after : Node} (retouched : before.RetouchedHere after)

include retouched

theorem trans {last : Node} (again : after.RetouchedHere last) : before.RetouchedHere last := by
  cases retouched with
  | kept => exact again
  | text scope body middle =>
      cases again with
      | kept => exact .text scope body middle
      | text _ _ last => exact .text scope body last
  | address scope url middle children =>
      cases again with
      | kept => exact .address scope url middle children
      | address _ _ last => exact .address scope url last children
  | briefComment isBrief children =>
      cases again with
      | kept => exact .briefComment isBrief children
      | briefComment =>
          simp only [OrderedSet.insert_insert]
          exact .briefComment isBrief children

theorem shape_eq : after.shape = before.shape := by
  cases retouched <;> rfl

theorem children_eq : after.children = before.children := by
  cases retouched <;> rfl

theorem kind_eq : after.kind = before.kind := by
  cases retouched <;> rfl

theorem sourceSets_eq : after.sourceSets = before.sourceSets := by
  cases retouched <;> rfl

theorem dris_eq : after.scope.dris = before.scope.dris := by
  cases retouched <;> rfl

theorem extras_eq : after.scope.extras = before.scope.extras := by
  cases retouched <;> rfl

theorem linkedDri?_eq : after.linkedDri? = before.linkedDri? := by
  cases retouched <;> rfl

theorem links_eq : after.links = before.links := by
  rw [Node.links_eq, Node.links_eq before, retouched.linkedDri?_eq, retouched.children_eq]

/-- Only texts, links and groups are retouched themselves. -/
theorem eq_of_shape (noText : before.shape ≠ .text) (noLink : before.shape ≠ .link)
    (noGroup : before.shape ≠ .group) : after = before := by
  cases retouched with
  | kept => rfl
  | text => exact absurd rfl noText
  | address => exact absurd rfl noLink
  | briefComment => exact absurd rfl noGroup

end RetouchedHere

/-! ## Retouched trees -/

/-- The node with every child replaced by the same blank node. -/
def frame (node : Node) : Node := node.mapChildren fun _ => .lineBreak {}

theorem frame_mapChildren (change : Node → Node) (node : Node) :
    (node.mapChildren change).frame = node.frame := by
  rw [frame, mapChildren_mapChildren]
  rfl

/-- What may become of a tree: the children are retouched in their places, then the node itself. -/
inductive Retouched : Node → Node → Prop
  | intro {before middle after : Node} (inPlace : middle.frame = before.frame)
      (children : List.Forall₂ Retouched before.children middle.children)
      (here : middle.RetouchedHere after) : Retouched before after

section

variable {change : Node → Node} (retouches : ∀ node : Node, node.RetouchedHere (change node))

include retouches

/-- A change that retouches every node retouches every tree. -/
theorem retouched_mapAll (node : Node) : node.Retouched (node.mapAll change) := by
  induction node using childInduction with
  | step node ih =>
      rw [mapAll_eq]
      refine .intro (frame_mapChildren _ node) ?_ (retouches (node.mapChildren (mapAll change)))
      rw [children_mapChildren, List.forall₂_map_right_iff, List.forall₂_same]
      exact ih

theorem keepsVariants_of_retouches : KeepsVariants change where
  shape node := (retouches node).shape_eq
  children node := (retouches node).children_eq
  variant node isVariant := by
    apply (retouches node).eq_of_shape <;> simp [isVariant]

theorem shape_mapAll (node : Node) : (node.mapAll change).shape = node.shape :=
  (keepsVariants_of_retouches retouches).shape_mapAll node

theorem children_mapAll (node : Node) :
    (node.mapAll change).children = node.children.map (mapAll change) :=
  (keepsVariants_of_retouches retouches).children_mapAll node

theorem kind_mapAll (node : Node) : (node.mapAll change).kind = node.kind := by
  rw [mapAll_eq, (retouches _).kind_eq, kind, scope_mapChildren, kind]

theorem sourceSets_mapAll (node : Node) : (node.mapAll change).sourceSets = node.sourceSets := by
  rw [mapAll_eq, (retouches _).sourceSets_eq, sourceSets, scope_mapChildren, sourceSets]

theorem dris_mapAll (node : Node) : (node.mapAll change).scope.dris = node.scope.dris := by
  rw [mapAll_eq, (retouches _).dris_eq, scope_mapChildren]

theorem extras_mapAll (node : Node) : (node.mapAll change).scope.extras = node.scope.extras := by
  rw [mapAll_eq, (retouches _).extras_eq, scope_mapChildren]

theorem linkedDri?_mapAll (node : Node) : (node.mapAll change).linkedDri? = node.linkedDri? := by
  rw [mapAll_eq, (retouches _).linkedDri?_eq, linkedDri?_mapChildren]

/-- The walk through a retouched tree visits the retouched nodes. -/
theorem walk_mapAll (node : Node) : (node.mapAll change).walk = node.walk.map (mapAll change) :=
  walk_mapAll_of_keeps (fun node => (retouches node).children_eq) node

/-- A retouched node has the gap that it had. -/
theorem coverageGap?_mapAll (node : Node) :
    (node.mapAll change).coverageGap? = node.coverageGap? := by
  have covered : (node.mapAll change).coveredSourceSets = node.coveredSourceSets := by
    rw [coveredSourceSets, coveredSourceSets, children_mapAll retouches, List.flatMap_map]
    simp only [sourceSets_mapAll retouches]
  rw [coverageGap?, coverageGap?, covered, children_mapAll retouches, List.isEmpty_map,
    shape_mapAll retouches, kind_mapAll retouches, sourceSets_mapAll retouches,
    dris_mapAll retouches]

/-- A retouched tree has the gaps that it had. -/
theorem coverageGaps_mapAll (node : Node) :
    (node.mapAll change).coverageGaps = node.coverageGaps := by
  rw [coverageGaps, walk_mapAll retouches, List.filterMap_map]
  exact List.filterMap_congr fun part _ => coverageGap?_mapAll retouches part

end

end Node

end Content

end DocPages
