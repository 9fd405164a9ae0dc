import DocPages.Proofs.Content.Links

/-!
# Variants in content

The variants that stand directly in a content, and the nodes in their distinguishing parts. A change
of nodes that keeps their forms and children and leaves variants as they are changes these nodes one
by one.
-/

namespace DocPages

namespace Content

namespace Node

/-- The variants in a divergent group. -/
def variants : Node → List Node
  | .divergentGroup _ _ _ variants => variants
  | _ => []

/-- The nodes in the distinguishing part of a variant. -/
def distinguishing : Node → List Node
  | .divergentInstance _ _ (some part) _ => part.children
  | _ => []

/-- The nodes in the distinguishing parts of the variants that stand directly in a content. -/
def variantParts (content : Node) : List (List Node) :=
  (content.children.flatMap variants).map distinguishing

/-- The change keeps forms and children, and variants altogether. -/
structure KeepsVariants (change : Node → Node) : Prop where
  shape : ∀ node, (change node).shape = node.shape
  children : ∀ node, (change node).children = node.children
  variant : ∀ node, node.shape = .divergentInstance → change node = node

private theorem variants_eq (node : Node) :
    node.variants = if node.shape = .divergentGroup then node.children else [] := by
  cases node <;> rfl

private theorem distinguishing_eq_nil {node : Node} (noVariant : node.shape ≠ .divergentInstance) :
    node.distinguishing = [] := by
  cases node <;> first | rfl | exact absurd rfl noVariant

theorem shape_mapChildren (change : Node → Node) (node : Node) :
    (node.mapChildren change).shape = node.shape := by
  cases node <;> rfl

theorem scope_mapChildren (change : Node → Node) (node : Node) :
    (node.mapChildren change).scope = node.scope := by
  cases node <;> rfl

namespace KeepsVariants

variable {change : Node → Node} (keeps : KeepsVariants change)

include keeps

theorem shape_mapAll (node : Node) : (node.mapAll change).shape = node.shape := by
  rw [mapAll_eq, keeps.shape, shape_mapChildren]

theorem children_mapAll (node : Node) :
    (node.mapAll change).children = node.children.map (mapAll change) :=
  children_mapAll_of_keeps keeps.children node

theorem variants_mapAll (node : Node) :
    (node.mapAll change).variants = node.variants.map (mapAll change) := by
  rw [variants_eq, variants_eq node, keeps.shape_mapAll, keeps.children_mapAll]
  split <;> rfl

private theorem distinguishing_mapAll (node : Node) :
    (node.mapAll change).distinguishing = node.distinguishing.map (mapAll change) := by
  by_cases isVariant : node.shape = .divergentInstance
  · rw [mapAll_eq, keeps.variant _ ((shape_mapChildren _ node).trans isVariant)]
    cases node with
    | divergentInstance scope before divergent after =>
        cases divergent with
        | none => rfl
        | some part => exact keeps.children_mapAll part
    | _ => cases isVariant
  · have noVariant : (node.mapAll change).shape ≠ .divergentInstance := by
      rwa [keeps.shape_mapAll]
    rw [distinguishing_eq_nil isVariant, distinguishing_eq_nil noVariant, List.map_nil]

/-- The nodes in distinguishing parts are changed one by one. -/
theorem variantParts_mapAll (node : Node) :
    (node.mapAll change).variantParts = node.variantParts.map (List.map (mapAll change)) := by
  rw [variantParts, variantParts, keeps.children_mapAll, List.flatMap_map]
  simp only [keeps.variants_mapAll, ← List.map_flatMap, List.map_map]
  exact List.map_congr_left fun variant _ => keeps.distinguishing_mapAll variant

end KeepsVariants

end Node

end Content

end DocPages
