import DocPages.Platform.Dependent

/-!
# The registry of source sets

What is known about the source sets of a module. An identifier that is not registered is shown by
its bare name and counts as common.
-/

namespace DocPages

/-- The known source sets by identifier. -/
structure Registry where
  known : Dependent SourceSet
deriving DecidableEq, Inhabited

namespace Registry

/-- The registry of a list of source sets, of which the last with an identifier counts. -/
def ofList (sourceSets : List SourceSet) : Registry :=
  ⟨.ofList (sourceSets.map fun sourceSet => (sourceSet.id, sourceSet))⟩

/-- The source set with an identifier. -/
def get? (registry : Registry) (id : SourceSetId) : Option SourceSet :=
  registry.known.get? id

/-- The number of known source sets. -/
def size (registry : Registry) : Nat :=
  registry.known.entries.length

/-- The name that readers see for a source set. -/
def displayName (registry : Registry) (id : SourceSetId) : String :=
  ((registry.get? id).map SourceSet.displayName).getD id.name

/-- The platform of a source set. -/
def platform (registry : Registry) (id : SourceSetId) : Platform :=
  ((registry.get? id).map SourceSet.platform).getD .common

end Registry

end DocPages
