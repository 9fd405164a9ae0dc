import DocPages.Collection.Grouping
import DocPages.Content.Traversal

/-!
# Collapsing variants

The variants of one row often read the same on several platforms. Variants are first grouped by
what stands before and after them, then those of a group with equal content are united, and their
source sets with them. Content is compared up to source sets, and everything keeps the order of
first appearance.

The parts of a variant are values of any type from which a node can be read, so that a renderer can
carry along what it has computed for the node.
-/

namespace DocPages

namespace Content

/-- A variant of a row with its parts. -/
structure Instance (α : Type) where
  sourceSets : SourceSets
  before : Option α
  divergent : Option α
  after : Option α

/-- Distinguishing content with all source sets that it applies to. -/
structure UnitedVariant (α : Type) where
  sourceSets : SourceSets
  content : α

/-- Variants that share what stands before and after them. -/
structure CollapsedInstances (α : Type) where
  before : Option α
  variants : List (UnitedVariant α)
  after : Option α

variable {α : Type}

/-- The content that variants are compared by. -/
def comparedContent (node : α → Node) (part : α) : Node :=
  (node part).comparedForm

/-- A nonempty list of variants with equal content as one. -/
def uniteVariants (variants : List (UnitedVariant α)) : Option (UnitedVariant α) :=
  variants.head?.map fun first =>
    { sourceSets := .ofList (variants.flatMap fun variant => variant.sourceSets.toList)
      content := first.content }

/-- The variants of a list of instances with the same surroundings. -/
def unitedVariants (node : α → Node) (instances : List (Instance α)) : List (UnitedVariant α) :=
  let variants := instances.filterMap fun entry =>
    entry.divergent.map fun content => { sourceSets := entry.sourceSets, content }
  (groupByFirstSeen (fun variant => comparedContent node variant.content) variants).filterMap
    uniteVariants

/-- The instances by their surroundings, each group with its variants united. -/
def collapse (node : α → Node) (instances : List (Instance α)) : List (CollapsedInstances α) :=
  let surroundings := fun (entry : Instance α) =>
    (entry.before.map (comparedContent node), entry.after.map (comparedContent node))
  (groupByFirstSeen surroundings instances).map fun group =>
    { before := group.head?.bind Instance.before
      variants := unitedVariants node group
      after := group.head?.bind Instance.after }

/-- The instance that a node is, if it is one. -/
def Node.instance? : Node → Option (Instance Node)
  | .divergentInstance scope before divergent after =>
    some { sourceSets := scope.sourceSets, before, divergent, after }
  | _ => none

/-- The collapsed instances among the nodes of a divergent group. -/
def collapseNodes (children : List Node) : List (CollapsedInstances Node) :=
  collapse id (children.filterMap Node.instance?)

end Content

end DocPages
