import DocPages.Content.Traversal

/-!
# Coverage of source sets

A node with children is covered if each of its source sets is one of a direct child. What is not
covered is content that the node claims and no child supports.
-/

namespace DocPages

namespace Content

/-- A node that claims source sets which no direct child supports. -/
structure CoverageGap where
  shape : Shape
  kind : Kind
  dris : OrderedSet Dri
  /-- The source sets that no child supports. -/
  uncovered : SourceSets
deriving DecidableEq, Inhabited

namespace Node

/-- The source sets of the direct children. -/
def coveredSourceSets (node : Node) : SourceSets :=
  .ofList (node.children.flatMap fun child => child.sourceSets.toList)

/-- The gap of a single node, if it has children and leaves a source set uncovered. -/
def coverageGap? (node : Node) : Option CoverageGap :=
  let uncovered := node.sourceSets.difference node.coveredSourceSets
  if node.children.isEmpty || uncovered.isEmpty then none
  else some { shape := node.shape, kind := node.kind, dris := node.scope.dris, uncovered }

/-- The gaps of all nodes of a tree, in the order of the walk. -/
def coverageGaps (node : Node) : List CoverageGap :=
  node.walk.filterMap coverageGap?

end Node

end Content

end DocPages
