import DocPages.Collection.Grouping
import DocPages.Declaration.View
import DocPages.Platform.Registry

/-!
# Clashing siblings

Sibling declarations clash when their identities agree up to the extra mark. They are either
renamed, so that each can have a page of its own, or merged, so that those with one identity share
a page.
-/

namespace DocPages

namespace Declaration

/-- The name of a declaration after the marks that tell it apart, which are the display names of
its source sets unless it states others. -/
def clashedName (registry : Registry) (declaration : Declaration) : String :=
  let fallback := declaration.sourceSets.toList.map registry.displayName
  let markers :=
    match declaration.extras.clashMarkers with
    | some [] | none => fallback
    | some markers => markers
  "[" ++ String.intercalate ", " markers ++ "]" ++ declaration.name?.getD ""

/-- The siblings grouped by identity up to the extra mark, those that do not stand alone in their
group with a clash-aware name. -/
def renameClashing (registry : Registry) (siblings : List Declaration) : List Declaration :=
  (groupByFirstSeen (fun sibling => sibling.dri.withoutExtra) siblings).flatMap fun group =>
    match group with
    | [single] => [single]
    | clashing =>
      clashing.map fun sibling => sibling.withClashAwareName (sibling.clashedName registry)

/-- The groups of siblings that share an identity. -/
def mergeClashing (siblings : List Declaration) : List (List Declaration) :=
  groupByFirstSeen dri siblings

end Declaration

end DocPages
