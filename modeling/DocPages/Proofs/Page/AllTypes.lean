import DocPages.Proofs.Content.Blocks
import DocPages.Proofs.Content.Fragments
import DocPages.Proofs.Content.Listings
import DocPages.Proofs.Page.Arranged
import DocPages.Proofs.Page.Packages
import DocPages.Proofs.Page.Passes

/-!
# The page of all types

A module lists its types on one page, without the type aliases that implement a class of the
module, and gives them pages package by package, where such an alias shares the page of its class.
No row is without a page. A page is without a row only if its type is an alias whose identity
compares as equal to that of a class and still is another one.
-/

namespace DocPages

open Content Declaration Build

/-! ## Rows -/

namespace Content

namespace Node

/-- The rows of the tables directly on a page. -/
def listedRows (content : Node) : List Node := content.children.flatMap tableRows

/-- The declaration that a row starts with a link to. -/
def leadingDri? (row : Node) : Option Dri := row.children.head?.bind linkedDri?

/-- The identities that the rows of a page are for. -/
def rowDris (content : Node) : List Dri :=
  content.listedRows.flatMap fun row => row.scope.dris.toList

/-- The rows of a page are for the types in some order, and each starts with a link to its type. -/
inductive ListsTypes (types : List Declaration) (content : Node) : Prop
  | intro {ordered : List Declaration} (perm : ordered.Perm types)
      (each : List.Forall₂ (fun type row => row.scope.dris = .singleton type.dri ∧
        row.leadingDri? = some type.dri) ordered content.listedRows)

namespace ListsTypes

variable {types : List Declaration} {content : Node} (lists : content.ListsTypes types)

include lists

theorem mem_rowDris_iff {dri : Dri} :
    dri ∈ content.rowDris ↔ ∃ type ∈ types, type.dri = dri := by
  obtain ⟨perm, each⟩ := lists
  rw [rowDris, List.mem_flatMap]
  constructor
  · rintro ⟨row, isRow, isDri⟩
    obtain ⟨type, isType, own, -⟩ := exists_related_of_mem each.flip isRow
    rw [own] at isDri
    exact ⟨type, perm.mem_iff.mp isType, (List.mem_singleton.mp isDri).symm⟩
  · rintro ⟨type, isType, rfl⟩
    obtain ⟨row, isRow, own, -⟩ := exists_related_of_mem each (perm.mem_iff.mpr isType)
    exact ⟨row, isRow, own ▸ List.mem_singleton_self _⟩

theorem exists_leadingDri? {row : Node} (isRow : row ∈ content.listedRows) :
    ∃ dri, row.scope.dris = .singleton dri ∧ row.leadingDri? = some dri := by
  obtain ⟨-, each⟩ := lists
  obtain ⟨type, -, own⟩ := exists_related_of_mem each.flip isRow
  exact ⟨type.dri, own⟩

/-- Retouched content lists what it listed before. -/
theorem mapAll {change : Node → Node}
    (retouches : ∀ node : Node, node.RetouchedHere (change node)) :
    (content.mapAll change).ListsTypes types := by
  obtain ⟨perm, each⟩ := lists
  have rows : (content.mapAll change).listedRows =
      content.listedRows.map (Node.mapAll change) := by
    rw [listedRows, listedRows, children_mapAll retouches, List.flatMap_map, List.map_flatMap]
    exact List.flatMap_congr fun node _ => tableRows_mapAll retouches node
  refine .intro perm ?_
  rw [rows, List.forall₂_map_right_iff]
  refine each.imp fun type row own => ⟨?_, ?_⟩
  · rw [dris_mapAll retouches, own.1]
  · have leading : (row.mapAll change).leadingDri? = row.leadingDri? := by
      rw [leadingDri?, leadingDri?, children_mapAll retouches, List.head?_map]
      cases row.children.head? with
      | none => rfl
      | some first => exact linkedDri?_mapAll retouches first
    rw [leading, own.2]

end ListsTypes

end Node

namespace Fragment

variable {α : Type} {elements : List α}

/-- A heading with a table has the rows that are made for the elements. It is missing only with
them. -/
theorem ensures_titledRows {row : α → Row Build} {shown : α → Node → Prop}
    (each : ∀ element ∈ elements, ∀ scope,
      Ensures (fun _ => True) (makeGroup scope (row element).1 (row element).2) (shown element))
    (title : String) (level : Nat) (kind : Kind) (settings : BlockSettings) (scope : Scope) :
    Ensures (fun _ => True) (titledRows title level kind settings (elements.map row) scope)
      fun nodes => (elements ≠ [] → nodes.head?.bind Node.headingTitle? = some title) ∧
        List.Forall₂ shown elements (nodes.flatMap Node.tableRows) := by
  by_cases empty : elements = []
  · subst empty
    exact ensures_pure ⟨fun filled => (filled rfl).elim, .nil⟩
  · have filled : elements.map row ≠ [] := mt List.map_eq_nil_iff.mp empty
    rw [titledRows_apply title level kind settings filled, List.mapM_map]
    refine Ensures.map ((ensures_mapM fun element member => each element member _).weaken ?_)
    exact fun made areRows => ⟨fun _ => rfl, by simpa [Node.tableRows] using areRows⟩

/-- A row that starts with a named link to a declaration, in the scope that the row overrides. -/
theorem ensures_linkedRow (name : String) (dri : Dri) (more : Fragment Build)
    (overrides : Overrides) (scope : Scope) :
    Ensures (fun _ => True) (makeGroup scope overrides (link name dri .main ++ more))
      fun row => row.scope = scope.override overrides ∧ ∃ outer inner,
        row.children.head? = some (.link outer (.declaration dri) [.text inner name]) := by
  have first : ∀ inner, Ensures (fun _ => True) (link name dri .main inner)
      fun nodes => ∃ outer inner, nodes = [.link outer (.declaration dri) [.text inner name]] :=
    fun _ _ _ => ⟨⟨_, _, rfl⟩, trivial⟩
  have leading : ∀ scope, Ensures (fun _ => True)
      ((link name dri .main ++ more : Fragment Build) scope) fun nodes => ∃ outer inner,
        nodes.head? = some (.link outer (.declaration dri) [.text inner name]) := by
    intro scope
    refine ensures_append (first scope) (ensures_true _) ?_
    rintro _ _ ⟨outer, inner, rfl⟩ -
    exact ⟨outer, inner, rfl⟩
  exact (leading _).bind fun nodes starts => ensures_pure ⟨rfl, starts⟩

/-- The rows of a block are for its elements in some order. If each starts with a link to its
element, so does the row. -/
theorem ensures_linkedBlock (subject : α → RowSubject) (name : α → String)
    (more : α → Fragment Build) (title : String) (level : Nat) (kind : Kind)
    (settings : BlockSettings) (scope : Scope) :
    Ensures (fun _ => True)
      (block title level kind elements subject settings
        (fun element => link (name element) (subject element).dri .main ++ more element) scope)
      fun nodes => ∃ ordered : List α, ordered.Perm elements ∧
        List.Forall₂ (fun element row => row.scope.dris = .singleton (subject element).dri ∧
          row.leadingDri? = some (subject element).dri) ordered (nodes.flatMap Node.tableRows) := by
  let ordered := if settings.sorted then
      sortBy (compareNames fun element => (subject element).name) elements
    else elements
  have perm : ordered.Perm elements := (inRowOrder_ite settings _ elements).perm
  refine (ensures_titledRows (fun element _ inner => ?_) title level kind settings scope).weaken
    fun nodes rows => ⟨ordered, perm, rows.2⟩
  refine (ensures_linkedRow (name element) _ (more element) _ inner).weaken ?_
  rintro row ⟨own, outer, text, leading⟩
  exact ⟨congrArg Scope.dris own, congrArg (Option.bind · Node.linkedDri?) leading⟩

end Fragment

end Content

/-! ## Contents -/

namespace PageMaker

variable (maker : PageMaker)

/-- The page of all types has a row for every type that stands alone. -/
theorem ensures_listsTypes (decl : ModuleDecl) :
    Ensures (fun _ => True) (maker.allTypesContent decl)
      (Node.ListsTypes (standaloneTypes decl.types)) := by
  have cover : ∀ scope, Ensures (fun _ => True)
      (Fragment.group { kind := some .cover } (.cover decl.name) scope)
      fun nodes => nodes.flatMap Node.tableRows = [] :=
    fun _ _ _ => ⟨rfl, trivial⟩
  refine (Fragment.ensures_append (cover _)
    (Fragment.ensures_linkedBlock rowSubject (fun type => type.qualifiedName?.getD "")
      maker.bestBrief _ _ _ _ _) ?_).bind fun nodes lists => ensures_pure lists
  rintro nodes more noRows ⟨ordered, perm, rows⟩
  refine .intro perm ?_
  rwa [Node.listedRows, Node.children, List.flatMap_append, noRows, List.nil_append]

end PageMaker

/-- The page of all types lists the types of its module that stand alone. -/
def Subject.ShowsTypes (subject : Subject) (content : Node) : Prop :=
  ∀ decl, subject = .allTypes decl → content.ListsTypes (standaloneTypes decl.types)

private theorem PageMaker.ensures_showsTypes (maker : PageMaker) (subject : Subject) :
    EnsuresUnlessFailed (fun _ => True) (maker.content subject) subject.ShowsTypes := by
  cases subject with
  | allTypes decl =>
      refine ((maker.ensures_listsTypes decl).weaken fun content lists other same => ?_).lift
      obtain rfl := Subject.allTypes.inj same
      exact lists
  | module | package | classlikes | enumEntries | members =>
      exact (ensuresUnlessFailed_true _).weaken fun _ _ _ _ => nofun

/-! ## Pages of types -/

/-- A type stands alone, unless it is a type alias and a type that stands alone has an identity that
compares as equal. -/
theorem Declaration.mem_standaloneTypes_or {types : List Declaration} {type : Declaration}
    (member : type ∈ types) :
    type ∈ standaloneTypes types ∨ type.isTypeAlias ∧
      ∃ other ∈ standaloneTypes types, compare other.dri type.dri = .eq := by
  cases isActual : isActualAlias types type with
  | false => exact .inl (List.mem_filter.mpr ⟨member, by simp [isActual]⟩)
  | true =>
      obtain ⟨isAlias, isExpected⟩ :
          type.isTypeAlias ∧ (expectedDris types).contains type.dri := by
        simpa [isActualAlias] using isActual
      obtain ⟨dri, isMember, equal⟩ := List.any_eq_true.mp isExpected
      obtain ⟨other, isOther, expected⟩ :=
        List.mem_filterMap.mp (OrderedSet.mem_ofList.mp isMember)
      obtain ⟨source, isSource, rfl⟩ := Option.map_eq_some_iff.mp expected
      refine .inr ⟨isAlias, other, List.mem_filter.mpr ⟨isOther, ?_⟩, by simpa using equal⟩
      cases other <;> simp_all [isActualAlias, isTypeAlias, classlike?]

namespace Arrangement

variable (arrangement : Arrangement)

/-- The pages of types below a package have the identities of its types. -/
theorem exists_classlike_below_package_iff (package : PackageDecl) {dri : Dri} :
    (∃ placed ∈ arrangement.below (.package package),
        placed.kind = .classlike ∧ dri ∈ placed.dris.toList) ↔
      ∃ type ∈ (Declaration.package package).memberTypes, type.dri = dri := by
  constructor
  · rintro ⟨placed, isBelow, isClasslike, isDri⟩
    cases arrangement.places_of_mem_below isBelow with
    | @types _ group isGroup =>
        obtain ⟨declaration, inGroup, rfl⟩ := List.mem_map.mp (OrderedSet.mem_ofList.mp isDri)
        obtain ⟨type, isType, same⟩ := arrangement.exists_sibling_of_mem_typeGroups isGroup inGroup
        refine ⟨type, by simpa [Subject.holders] using isType, ?_⟩
        rw [← dri_unrenamed, same, dri_unrenamed]
    | entries isGroup =>
        obtain ⟨declaration, inGroup, -⟩ := List.mem_map.mp (OrderedSet.mem_ofList.mp isDri)
        obtain ⟨entry, isEntry, -⟩ := arrangement.exists_sibling_of_mem_groups isGroup inGroup
        simp [Subject.holders, enumEntries] at isEntry
    | constructor | functions | properties => cases isClasslike
  · rintro ⟨type, isType, rfl⟩
    have inGroups := (arrangement.flatten_typeGroups_perm _).mem_iff.mpr
      (List.mem_map_of_mem isType)
    obtain ⟨declaration, isMember, same⟩ := List.mem_map.mp inGroups
    obtain ⟨group, isGroup, inGroup⟩ := List.mem_flatten.mp isMember
    refine ⟨.classlikes group, ?_, rfl, OrderedSet.mem_ofList.mpr (List.mem_map.mpr
      ⟨declaration, inGroup, ?_⟩)⟩
    · simp only [below, scopeSubjects, Members.ofDeclarations, List.flatMap_singleton]
      exact List.mem_append_left _ (List.mem_append_left _ (List.mem_map_of_mem isGroup))
    · rw [← dri_unrenamed, same, dri_unrenamed]

end Arrangement

namespace Page

/-- The pages of types directly below the pages of packages. -/
def typePages (root : Page) : List Page :=
  (root.children.filter (·.kind = .package)).flatMap fun package =>
    package.children.filter (·.kind = .classlike)

/-- The identities of the pages of types. -/
def typeDris (root : Page) : List Dri := root.typePages.flatMap (·.dris.toList)

end Page

namespace Arrangement.Arranges

variable {arrangement : Arrangement} {shown : Subject → Node → Prop} {decl : ModuleDecl}
  {root : Page} (arranged : arrangement.Arranges shown (.module decl) root)

include arranged

/-- The pages of types have the identities of the types of the module. -/
theorem mem_typeDris_iff {dri : Dri} :
    dri ∈ root.typeDris ↔ ∃ type ∈ decl.types, type.dri = dri := by
  simp only [Page.typeDris, Page.typePages, List.mem_flatMap, List.mem_filter, decide_eq_true_eq]
  obtain ⟨-, below⟩ := arranged
  constructor
  · rintro ⟨child, ⟨page, ⟨isPage, isPackage⟩, isChild, isClasslike⟩, isDri⟩
    obtain ⟨subject, isBelow, ⟨-, pageBelow⟩⟩ := exists_related_of_mem below.flip isPage
    obtain ⟨placed, isPlaced, ⟨-, -⟩⟩ := exists_related_of_mem pageBelow.flip isChild
    cases arrangement.places_of_mem_below isBelow with
    | @package _ package member =>
        obtain ⟨type, isType, same⟩ := (arrangement.exists_classlike_below_package_iff package).mp
          ⟨placed, isPlaced, isClasslike, isDri⟩
        exact ⟨type, List.mem_flatMap.mpr ⟨package, member, isType⟩, same⟩
    | allTypes | constructor | types | functions | properties | entries => cases isPackage
  · rintro ⟨type, isType, same⟩
    obtain ⟨package, member, inPackage⟩ := List.mem_flatMap.mp isType
    obtain ⟨placed, isPlaced, isClasslike, isDri⟩ :=
      (arrangement.exists_classlike_below_package_iff package).mpr ⟨type, inPackage, same⟩
    have isBelow : .package package ∈ arrangement.below (.module decl) :=
      List.mem_append_left _ (List.mem_map_of_mem member)
    obtain ⟨page, isPage, ⟨-, pageBelow⟩⟩ := exists_related_of_mem below isBelow
    obtain ⟨child, isChild, ⟨-, -⟩⟩ := exists_related_of_mem pageBelow isPlaced
    exact ⟨_, ⟨_, ⟨isPage, rfl⟩, isChild, isClasslike⟩, isDri⟩

/-- A page of all types is that of the module, which has one. -/
theorem shown_of_allTypes {page : Page} (inTree : page ∈ root.all)
    (isListing : page.kind = .allTypes) :
    arrangement.listsAllTypes decl ∧ shown (.allTypes decl) page.content := by
  let eligible : Subject → Prop := fun subject =>
    (∀ other, subject = .module other → other = decl) ∧
      ∀ other, subject = .allTypes other → other = decl ∧ arrangement.listsAllTypes decl
  have below : ∀ subject, eligible subject →
      ∀ placed ∈ arrangement.below subject, eligible placed := by
    rintro subject ⟨isRoot, -⟩ placed member
    cases arrangement.places_of_mem_below member with
    | @allTypes other listed =>
        obtain rfl := isRoot other rfl
        exact ⟨nofun, fun _ same => ⟨(Subject.allTypes.inj same).symm, listed⟩⟩
    | package | constructor | types | functions | properties | entries => exact ⟨nofun, nofun⟩
  have listings : ∀ page ∈ root.all, page.kind = .allTypes →
      arrangement.listsAllTypes decl ∧ shown (.allTypes decl) page.content := by
    refine arranged.forall_mem_all below ?_
      ⟨fun _ same => (Subject.module.inj same).symm, nofun⟩
    intro subject content children isEligible holds isListing
    cases subject with
    | allTypes other =>
        obtain ⟨rfl, listed⟩ := isEligible.2 other rfl
        exact ⟨listed, holds⟩
    | module | package | classlikes | enumEntries | members => cases isListing
  exact listings page inTree isListing

theorem exists_allTypes_iff :
    (∃ page ∈ root.all, page.kind = .allTypes) ↔ arrangement.listsAllTypes decl := by
  constructor
  · rintro ⟨page, inTree, isListing⟩
    exact (arranged.shown_of_allTypes inTree isListing).1
  · intro listed
    obtain ⟨-, below⟩ := arranged
    have isBelow : .allTypes decl ∈ arrangement.below (.module decl) :=
      List.mem_append_right _ (by simp [listed])
    obtain ⟨page, isPage, pageArranged⟩ := exists_related_of_mem below isBelow
    have isListing : page.kind = .allTypes := by
      cases pageArranged
      rfl
    have inPage : page ∈ page.all := Page.all_eq page ▸ List.mem_cons_self
    refine ⟨page, ?_, isListing⟩
    rw [Page.all_eq]
    exact List.mem_cons_of_mem _ (List.mem_flatMap.mpr ⟨page, isPage, inPage⟩)

end Arrangement.Arranges

/-! ## Modules -/

namespace ModuleDecl

/-- The generated tree of a module has the pages of the module, and a page of all types lists the
types that stand alone. -/
private theorem arranges_showsTypes_of_generate {settings : Settings} {decl : ModuleDecl}
    {generated : Generated} (success : decl.generate settings = .ok generated) :
    (decl.pageMaker settings []).Arranges Subject.ShowsTypes (.module decl) generated.root := by
  refine arranges_of_generate (PageMaker.ensures_showsTypes _) ?_ success
  intro depth subject content shows decl isListing
  rw [Pass.finish_eq_mapAll]
  exact (shows decl isListing).mapAll (Pass.retouches_foldl Pass.standard depth)

/-- If a module is to list all types, it has a page of all types exactly if some package declares a
type. Every row of the page is for one type, starts with a link to it, and its type has a page
directly below that of a package. A page there is for a type with a row, unless it is for a type
alias and some row has an identity that compares as equal. If identities of types that compare as
equal are equal, the rows and these pages have the same set of identities. -/
theorem allTypes_of_generate {settings : Settings} {decl : ModuleDecl} {generated : Generated}
    (listsAll : settings.listAllTypes = true)
    (success : decl.generate settings = .ok generated) :
    ((∃ page ∈ generated.root.all, page.kind = .allTypes) ↔
      ∃ package ∈ decl.packages, package.classlikes ≠ [] ∨ package.typeAliases ≠ []) ∧
    ∀ page ∈ generated.root.all, page.kind = .allTypes →
      (∀ row ∈ page.content.listedRows, ∃ dri,
        row.scope.dris = .singleton dri ∧ row.leadingDri? = some dri) ∧
      page.content.rowDris ⊆ generated.root.typeDris ∧
      (∀ dri ∈ generated.root.typeDris, dri ∈ page.content.rowDris ∨
        ∃ type ∈ decl.types, type.isTypeAlias ∧ type.dri = dri ∧
          ∃ other ∈ page.content.rowDris, compare other dri = .eq) ∧
      ((∀ first ∈ decl.types, ∀ second ∈ decl.types,
          compare first.dri second.dri = .eq → first.dri = second.dri) →
        OrderedSet.ofList page.content.rowDris = OrderedSet.ofList generated.root.typeDris) := by
  have arranged := arranges_showsTypes_of_generate success
  constructor
  · rw [arranged.exists_allTypes_iff]
    simp [Arrangement.listsAllTypes, pageMaker, listsAll]
  · intro page inTree isListing
    have lists := (arranged.shown_of_allTypes inTree isListing).2 decl rfl
    have hasPage : page.content.rowDris ⊆ generated.root.typeDris := by
      intro dri isRow
      obtain ⟨type, isStandalone, same⟩ := lists.mem_rowDris_iff.mp isRow
      exact arranged.mem_typeDris_iff.mpr ⟨type, List.mem_of_mem_filter isStandalone, same⟩
    have hasRow : ∀ dri ∈ generated.root.typeDris, dri ∈ page.content.rowDris ∨
        ∃ type ∈ decl.types, type.isTypeAlias ∧ type.dri = dri ∧
          ∃ other ∈ page.content.rowDris, compare other dri = .eq := by
      intro dri isPage
      obtain ⟨type, isType, rfl⟩ := arranged.mem_typeDris_iff.mp isPage
      rcases mem_standaloneTypes_or isType with isStandalone | ⟨isAlias, other, isOther, equal⟩
      · exact .inl (lists.mem_rowDris_iff.mpr ⟨type, isStandalone, rfl⟩)
      · exact .inr ⟨type, isType, isAlias, rfl, other.dri,
          lists.mem_rowDris_iff.mpr ⟨other, isOther, rfl⟩, equal⟩
    refine ⟨fun row => lists.exists_leadingDri?, hasPage, hasRow, fun distinct => ?_⟩
    have toldApart : ∀ first ∈ generated.root.typeDris, ∀ second ∈ generated.root.typeDris,
        compare first second = .eq → first = second := by
      intro first isFirst second isSecond equal
      obtain ⟨type, isType, rfl⟩ := arranged.mem_typeDris_iff.mp isFirst
      obtain ⟨other, isOther, rfl⟩ := arranged.mem_typeDris_iff.mp isSecond
      exact distinct type isType other isOther equal
    refine OrderedSet.ofList_congr_of_distinct
      (fun first isFirst second isSecond => toldApart first (hasPage isFirst) second
        (hasPage isSecond)) fun dri => ⟨fun isRow => hasPage isRow, fun isPage => ?_⟩
    rcases hasRow dri isPage with isRow | ⟨-, -, -, -, other, isRow, equal⟩
    · exact isRow
    · exact toldApart other (hasPage isRow) dri isPage equal ▸ isRow

/-- The package declares types, and their identities are told apart. -/
theorem allTypes_of_generate_shapes :
    ∃ generated page, shapes.generate { listAllTypes := true } = .ok generated ∧
      page ∈ generated.root.all ∧ page.kind = .allTypes ∧
      OrderedSet.ofList page.content.rowDris = OrderedSet.ofList generated.root.typeDris := by
  obtain ⟨generated, success⟩ := exists_generated_shapes { listAllTypes := true }
  have ⟨isListed, lists⟩ := allTypes_of_generate rfl success
  obtain ⟨page, inTree, isListing⟩ := isListed.mpr
    ⟨_, List.mem_singleton_self _, .inl (List.cons_ne_nil _ _)⟩
  have ⟨_, _, _, sameSet⟩ := lists page inTree isListing
  exact ⟨generated, page, success, inTree, isListing, sameSet (by decide)⟩

/-- A module with a class that is declared in a function with a parameter of a type `T`, and a type
alias of the same name that is declared in a function with a parameter of its own type parameter
`T`. -/
def locals : ModuleDecl :=
  let common : SourceSetId := ⟨"shapes", "common"⟩
  let jvm : SourceSetId := ⟨"shapes", "jvm"⟩
  let named := fun (id : SourceSetId) (param : SignatureType) =>
    ({ dri := { Dri.ofClass "shapes" "Visitor" with
         callable := some { name := "fill", params := [param] } }
       name := some "Visitor", sourceSets := .singleton id } : Common)
  { name := "shapes"
    packages :=
      [{ common :=
          { dri := .ofPackage "shapes", name := some "shapes", sourceSets := .ofList [common, jvm] }
         classlikes := [{ common := named common (.named "T"), expectPresentIn := some common }]
         typeAliases := [{ common := named jvm (.param "T") }] }]
    sourceSets := [⟨common, "common", .common⟩, ⟨jvm, "jvm", .jvm⟩] }

/-- The two identities differ but compare as equal, so that the type alias has neither a row nor a
place on the page of the class. -/
theorem exists_rowDris_ne :
    ∃ generated page, locals.generate { listAllTypes := true } = .ok generated ∧
      page ∈ generated.root.all ∧ page.kind = .allTypes ∧
      page.content.rowDris.length = 1 ∧ generated.root.typePages.length = 2 ∧
      OrderedSet.ofList page.content.rowDris ≠ OrderedSet.ofList generated.root.typeDris := by
  have listed : ((locals.generate { listAllTypes := true }).toOption.bind fun generated =>
      (generated.root.all.find? (·.kind = .allTypes)).map fun page =>
        decide (page.content.rowDris.length = 1 ∧ generated.root.typePages.length = 2 ∧
          OrderedSet.ofList page.content.rowDris ≠
            OrderedSet.ofList generated.root.typeDris)) = some true := by
    decide +kernel
  obtain ⟨generated, made, found⟩ := Option.bind_eq_some_iff.mp listed
  obtain ⟨page, isPage, differ⟩ := Option.map_eq_some_iff.mp found
  exact ⟨generated, page, eq_ok_of_toOption made, List.mem_of_find?_eq_some isPage,
    by simpa using List.find?_some isPage, of_decide_eq_true differ⟩

end ModuleDecl

end DocPages
