import DocPages.Page.Sections
import DocPages.Page.Subject
import DocPages.Siblings.Rows

/-!
# Listings of members

The sections that list the types, properties and functions of a scope. Each is a table with one row
for the variants of a name, and every variant shows its signature and a brief of its description.
Extensions are listed with the members of the class that they extend, in rows of their own.
-/

namespace DocPages

open Content

/-- The content of a page or a part of it, in a scope that only states declarations and source
sets. -/
def Content.makeContent (dris : OrderedSet Dri) (sourceSets : SourceSets) (body : Fragment Build) :
    Build Node :=
  Fragment.makeGroup { dris, sourceSets } {} body

/-- What a section lists. -/
inductive ListedKind where
  | types
  | properties
  | functions
deriving DecidableEq, Repr, Inhabited

namespace ListedKind

/-- The role of the content. -/
def kind : ListedKind → Kind
  | .types => .classlikes
  | .properties => .properties
  | .functions => .functions

/-- The tab of a section, which is one of its own for a section of extensions only. -/
def tab (onlyExtensions : Bool) : ListedKind → Tab
  | .types => .type
  | .properties => if onlyExtensions then .extensionProperty else .property
  | .functions => if onlyExtensions then .extensionFunction else .function

end ListedKind

/-- A section that lists declarations. -/
structure Listing where
  title : String
  kind : ListedKind
  declarations : List Declaration

namespace Listing

/-- The role of a row. -/
def rowKind (listing : Listing) (key : RowKey) : Kind :=
  if key.isExtension then .extensions else listing.kind.kind

/-- The extra properties of a row: its tab, if it holds extensions, and its anchor. -/
def rowExtras (listing : Listing) (key : RowKey) : Extras Declaration where
  tab :=
    if key.isExtension then
      some <|
        if listing.declarations.any Declaration.isFunction then .extensionFunction
        else .extensionProperty
    else none
  symbolAnchor := key.name.map fun name => { name, kind := listing.kind.kind }

/-- One variant of a row: its signature, and a brief of its description below. -/
def variant (renderers : List TagRenderer) (kind : Kind) (declaration : Declaration) :
    Variant Build where
  dris := .singleton declaration.dri
  sourceSets := declaration.sourceSets
  extras := { symbolAnchor := some { name := declaration.name?.getD "", kind } }
  divergent := some ({ extras := some .empty }, .group {} (.signature declaration))
  after := some ({ extras := some .empty },
    Section.brief declaration ++ Section.customTagBriefs renderers declaration)

/-- The row of the variants of a name: a link to the first of them, and the variants. -/
def row (renderers : List TagRenderer) (listing : Listing) (key : RowKey) (first : Declaration)
    (variants : List Declaration) : Row Build :=
  let kind := listing.rowKind key
  let name := key.name.getD ""
  let dris := Declaration.drisOf variants
  let sourceSets := Declaration.sourceSetsOf variants
  ({ dris := some dris, sourceSets := some sourceSets, kind := some kind, styles := some {}
     extras := some (listing.rowExtras key) },
    .linkTo (.declaration first.dri)
        { kind := some kind, styles := some (.singleton .rowTitle), sourceSets := some sourceSets
          extras := some .empty }
        (.text kind name) ++
      .divergentGroup name { dris := some dris, kind := some kind, extras := some .empty } true
        (variants.map (variant renderers kind)))

/-- The rows of a listing. -/
def rows (renderers : List TagRenderer) (listing : Listing) : List (Row Build) :=
  (Declaration.rows listing.declarations).filterMap fun (key, variants) =>
    variants.head?.map fun first => listing.row renderers key first variants

/-- A heading and a table with a row for the variants of every name, or nothing if the listing is
empty. -/
def fragment (renderers : List TagRenderer) (listing : Listing) : Fragment Build :=
  let kind := listing.kind.kind
  let onlyExtensions := listing.declarations.all Declaration.isExtension
  .onlyIf (!listing.declarations.isEmpty) <|
    .group { extras := some { tab := some (listing.kind.tab onlyExtensions) } } <|
      .headerWith 2 listing.title { kind := some kind, extras := some .empty } .empty ++
        .table { kind := some kind, styles := some {}, extras := some .empty }
          [.group {} (.text .main "Name") ++ .group {} (.text .main "Summary")] none
          (listing.rows renderers)

end Listing

namespace Declaration

/-- An extension of a type of a scope. -/
def extendsTypeOf (scope : OrderedSet Dri) (extension : Declaration) : Bool :=
  match extension.receiver?.bind fun receiver => receiver.type.dri with
  | some dri => scope.contains dri
  | none => false

/-- The failure of a list of extensions, which is that of the first declaration that is neither a
function nor a property. -/
def extensionFailure? (extensions : List Declaration) : Option Failure :=
  (extensions.find? fun extension => !extension.isProperty && !extension.isFunction).map
    fun extension => .unexpectedExtension extension.kindName extension.dri

end Declaration

/-- The members and extensions of a kind in one section, or with the inherited members and the
extensions of other types in a second one. -/
def separatedListings (separates : Bool) (title inheritedTitle : String) (kind : ListedKind)
    (scope : OrderedSet Dri) (members extensions : List Declaration) : List Listing :=
  if separates then
    [{ title, kind
       declarations := members.filter (!·.isInherited) ++
         extensions.filter (·.extendsTypeOf scope) },
      { title := inheritedTitle, kind
        declarations := members.filter (·.isInherited) ++
          extensions.filter (!·.extendsTypeOf scope) }]
  else [{ title, kind, declarations := members ++ extensions }]

/-- The sections of a scope with its members and extensions. -/
def Members.listings (settings : Settings) (scope : OrderedSet Dri) (extensions : List Declaration)
    (members : Members) : List Listing :=
  { title := "Types", kind := .types, declarations := members.types } ::
    (separatedListings settings.separateInherited "Properties" "Inherited properties" .properties
        scope members.properties (extensions.filter Declaration.isProperty) ++
      separatedListings settings.separateInherited "Functions" "Inherited functions" .functions
        scope members.functions (extensions.filter Declaration.isFunction))

end DocPages
