import DocPages.Collection.Comparison
import DocPages.Collection.Grouping
import DocPages.Declaration.View

/-!
# Rows of variants

A section of a page lists its declarations in rows. A row holds the variants of one name, members
apart from extensions. The rows and the variants in a row are ordered by properties of the
declarations, so that the input order only decides between variants that these cannot tell apart.
-/

namespace DocPages

/-- What the variants of a row share. -/
structure RowKey where
  name : Option String
  isExtension : Bool
deriving DecidableEq, Repr, Inhabited

namespace RowKey

/-- The key of the row that a declaration belongs to. -/
def ofDeclaration (declaration : Declaration) : RowKey :=
  ⟨declaration.name?, declaration.isExtension⟩

/-- Rows are ordered by name, an absent one first, and members stand before extensions. -/
def compareKeys (left right : RowKey) : Ordering :=
  (compareAbsentFirst compareAlphabetically left.name right.name).then
    (compare left.isExtension right.isExtension)

end RowKey

/-- Callables by the number of parameters, then by signature. -/
def CallableId.compareVariants (left right : CallableId) : Ordering :=
  (compare left.params.length right.params.length).then (compare left.signature right.signature)

namespace Declaration

/-- Variants by package, an absent one last, then by class chain, an absent one first, then by
callable, an absent one last. -/
def compareVariants (left right : Declaration) : Ordering :=
  ((compareAbsentLast compare left.dri.packageName right.dri.packageName).then
    (compareAbsentFirst compare left.dri.classNames right.dri.classNames)).then
      (compareAbsentLast CallableId.compareVariants left.dri.callable right.dri.callable)

/-- The variants of a row in order. -/
def sortVariants (variants : List Declaration) : List Declaration :=
  sortBy compareVariants variants

/-- What makes a repetition of a variant: its identity and its source sets. -/
def variantKey (declaration : Declaration) : Dri × SourceSets :=
  (declaration.dri, declaration.sourceSets)

/-- The variants that a row shows: each once, and no type alias beside a class. -/
def shownVariants (variants : List Declaration) : List Declaration :=
  let candidates :=
    if variants.any isClasslike then variants.filter (!·.isTypeAlias) else variants
  distinctBy variantKey candidates

/-- The rows of a section with their variants, in order. -/
def rows (declarations : List Declaration) : List (RowKey × List Declaration) :=
  sortBy (fun left right => left.1.compareKeys right.1)
    ((groupByFirstSeenKeyed RowKey.ofDeclaration declarations).map fun (key, variants) =>
      (key, sortVariants (shownVariants variants)))

end Declaration

end DocPages
