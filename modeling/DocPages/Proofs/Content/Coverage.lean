import DocPages.Content.Coverage
import DocPages.Proofs.Content.Links

/-!
# Covered content

What a coverage gap says about a node: it has children, and it claims a source set that none of them
carries.
-/

namespace DocPages

/-- A set contains its elements and nothing else, if elements that compare as equal are equal. -/
@[simp]
theorem OrderedSet.contains_iff {α : Type} [Ord α] [Std.LawfulEqOrd α]
    {set : OrderedSet α} {element : α} : set.contains element ↔ element ∈ set.toList := by
  simp [contains]

namespace Content

namespace Node

/-- The node has children and claims a source set that none of them carries. -/
def Overclaims (node : Node) : Prop :=
  node.children ≠ [] ∧
    ∃ id ∈ node.sourceSets.toList, ∀ child ∈ node.children, id ∉ child.sourceSets.toList

instance (node : Node) : Decidable node.Overclaims :=
  inferInstanceAs (Decidable (_ ∧ _))

/-- Exactly the nodes that claim too much have a gap. -/
theorem isSome_coverageGap?_iff {node : Node} : node.coverageGap?.isSome ↔ node.Overclaims := by
  have uncovered : (node.sourceSets.difference node.coveredSourceSets).isEmpty = false ↔
      ∃ id ∈ node.sourceSets.toList, ∀ child ∈ node.children, id ∉ child.sourceSets.toList := by
    simp [OrderedSet.isEmpty, OrderedSet.difference, coveredSourceSets]
  rw [coverageGap?, Overclaims, ← uncovered]
  cases isLeaf : node.children.isEmpty <;> simp_all

/-- A tree has a gap for every node that claims too much. -/
theorem length_coverageGaps (node : Node) :
    node.coverageGaps.length = node.walk.countP fun part => decide part.Overclaims := by
  rw [coverageGaps, List.length_filterMap_eq_countP]
  exact List.countP_congr fun part _ => by simp [isSome_coverageGap?_iff]

/-- A tree without gaps has no node that claims too much. -/
theorem coverageGaps_eq_nil_iff {node : Node} :
    node.coverageGaps = [] ↔ ∀ part ∈ node.walk, ¬part.Overclaims := by
  rw [← List.length_eq_zero_iff, length_coverageGaps, List.countP_eq_zero]
  simp

/-- A tree whose nodes all have the same source sets has no gaps. -/
theorem coverageGaps_eq_nil_of_walk {node : Node} {sourceSets : SourceSets}
    (same : ∀ part ∈ node.walk, part.sourceSets = sourceSets) : node.coverageGaps = [] := by
  rw [coverageGaps_eq_nil_iff]
  induction node using childInduction with
  | step node ih =>
      rw [walk_eq, List.forall_mem_cons, List.forall_mem_flatMap] at same ⊢
      obtain ⟨own, below⟩ := same
      refine ⟨fun ⟨hasChildren, id, isClaimed, missing⟩ => ?_,
        fun child isChild => ih child isChild (below child isChild)⟩
      obtain ⟨child, isChild⟩ := List.exists_mem_of_ne_nil _ hasChildren
      have shared : child.sourceSets = sourceSets :=
        below child isChild child (walk_eq child ▸ List.mem_cons_self)
      exact missing child isChild (shared ▸ own ▸ isClaimed)

end Node

end Content

end DocPages
