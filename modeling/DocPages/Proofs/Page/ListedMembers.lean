import DocPages.Proofs.Content.Fragments
import DocPages.Proofs.Content.Listings
import DocPages.Proofs.Page.Extensions
import DocPages.Proofs.Page.Listed

/-!
# What the sections of members list

A section lists a variant for every declaration that it is for: the name of its row, whether the row
is for extensions, its identity and its source sets. Functions and properties are listed in one
section or, with the inherited ones and the extensions of other types, in two, and either way the
same variants are listed.
-/

namespace DocPages

open Content Declaration Build

/-! ## Variants of declarations -/

/-- What a section says about a declaration that it lists. -/
def Declaration.listedVariant (declaration : Declaration) : ListedVariant where
  name := declaration.name?
  isExtension := declaration.isExtension
  dris := .singleton declaration.dri
  sourceSets := declaration.sourceSets

namespace Listing

/-- What a section says about the variants of a row. -/
def shownInRow (key : RowKey) (variants : List Declaration) : List ListedVariant :=
  variants.map fun variant =>
    { name := key.name, isExtension := key.isExtension
      dris := .singleton variant.dri, sourceSets := variant.sourceSets }

/-- What a section says about the variants that it lists, row by row. -/
def shown (listing : Listing) : List ListedVariant :=
  (Declaration.rows listing.declarations).flatMap fun row => shownInRow row.1 row.2

/-- A section without classes lists its declarations, and nothing else. -/
theorem mem_shown_iff {listing : Listing}
    (noClass : ∀ declaration ∈ listing.declarations, declaration.isClasslike = false)
    {entry : ListedVariant} :
    entry ∈ listing.shown ↔
      ∃ declaration ∈ listing.declarations, declaration.listedVariant = entry := by
  constructor
  · intro member
    obtain ⟨⟨key, variants⟩, isRow, inRow⟩ := List.mem_flatMap.mp member
    obtain ⟨variant, isVariant, rfl⟩ := List.mem_map.mp inRow
    refine ⟨variant, mem_of_mem_rows isRow isVariant, ?_⟩
    rw [← key_of_mem_rows isRow isVariant]
    rfl
  · rintro ⟨declaration, listed, rfl⟩
    have competes : declaration ∈
        competitors (RowKey.ofDeclaration declaration) listing.declarations := by
      have noneHidden : (listing.declarations.filter fun other =>
          RowKey.ofDeclaration other = RowKey.ofDeclaration declaration).any isClasslike = false :=
        List.any_eq_false.mpr fun other inRow => by
          simp [noClass other (List.mem_filter.mp inRow).1]
      rw [competitors, withoutHiddenAliases, noneHidden, if_neg Bool.false_ne_true]
      simp [listed]
    obtain ⟨variants, isRow, variant, inRow, same⟩ := exists_row_of_mem_competitors competes
    refine List.mem_flatMap.mpr ⟨_, isRow, List.mem_map.mpr ⟨variant, inRow, ?_⟩⟩
    obtain ⟨sameDri, sameSourceSets⟩ := Prod.mk.inj same
    simp only [sameDri, sameSourceSets]
    rfl

/-! ## Sections -/

variable {renderers : List TagRenderer}

private theorem ensures_variant (kind : Kind) (declaration : Declaration) (scope : Scope) :
    Ensures (fun _ => True)
      (Fragment.makeVariant scope (variant renderers kind declaration))
      fun node => (node.scope.dris, node.sourceSets) =
        (.singleton declaration.dri, declaration.sourceSets) :=
  (ensures_true _).bind fun _ _ => (ensures_true _).bind fun _ _ => (ensures_true _).bind
    fun _ _ => ensures_pure rfl

private theorem ensures_variants (kind : Kind) (variants : List Declaration) (groupId : String)
    (overrides : Overrides) (scope : Scope) :
    Ensures (fun _ => True)
      (Fragment.divergentGroup groupId overrides true (variants.map (variant renderers kind)) scope)
      fun nodes =>
        (nodes.flatMap Node.variants).map (fun node => (node.scope.dris, node.sourceSets)) =
          variants.map fun declaration => (.singleton declaration.dri, declaration.sourceSets) := by
  have made : ∀ inner, Ensures (fun _ => True)
      ((variants.map (variant renderers kind)).mapM (Fragment.makeVariant inner))
      (List.Forall₂ (fun declaration node => (node.scope.dris, node.sourceSets) =
        (.singleton declaration.dri, declaration.sourceSets)) variants) := by
    intro inner
    rw [List.mapM_map]
    exact ensures_mapM fun declaration _ => ensures_variant kind declaration inner
  refine (made _).bind fun instances each => ensures_pure ?_
  rw [List.flatMap_singleton]
  exact map_eq_map_of_forall₂ each

/-- The role of a row tells whether it is for extensions. -/
private theorem rowKind_eq_extensions (listing : Listing) (key : RowKey) :
    (listing.rowKind key == .extensions) = key.isExtension := by
  rw [rowKind]
  cases key.isExtension <;> cases listing.kind <;> rfl

/-- The anchor of a row has the name of the row. -/
private theorem name_rowExtras (listing : Listing) (key : RowKey) :
    (listing.rowExtras key).symbolAnchor.map SymbolAnchor.name = key.name := by
  simp [rowExtras, Function.comp_def]

/-- A row lists its variants under its name. -/
private theorem ensures_row (listing : Listing) (key : RowKey) (first : Declaration)
    (variants : List Declaration) (scope : Scope) :
    Ensures (fun _ => True)
      (Fragment.makeGroup scope (listing.row renderers key first variants).1
        (listing.row renderers key first variants).2)
      fun node => node.listedInRow = shownInRow key variants := by
  have title : ∀ inner overrides, Ensures (fun _ => True)
      (Fragment.linkTo (.declaration first.dri) overrides
        (.text (listing.rowKind key) (key.name.getD "")) inner)
      fun nodes => nodes.flatMap Node.variants = [] :=
    fun _ _ => (ensures_true _).bind fun _ _ => ensures_pure rfl
  have body : ∀ inner, Ensures (fun _ => True)
      ((listing.row renderers key first variants).2 inner) fun nodes =>
        (nodes.flatMap Node.variants).map (fun node => (node.scope.dris, node.sourceSets)) =
          variants.map fun declaration => (.singleton declaration.dri, declaration.sourceSets) := by
    intro inner
    refine Fragment.ensures_append (title inner _)
      (ensures_variants (listing.rowKind key) variants _ _ inner) ?_
    intro link group noVariants listed
    rwa [List.flatMap_append, noVariants, List.nil_append]
  refine (body _).bind fun nodes listed => ensures_pure ?_
  have entries := congrArg (List.map fun (parts : OrderedSet Dri × SourceSets) =>
    ({ name := key.name, isExtension := key.isExtension
       dris := parts.1, sourceSets := parts.2 } : ListedVariant)) listed
  rw [List.map_map, List.map_map] at entries
  have reads : ∀ inner, (Node.group (scope.override
      (listing.row renderers key first variants).1) inner).listedInRow =
        (inner.flatMap Node.variants).map fun variant =>
          { name := (listing.rowExtras key).symbolAnchor.map SymbolAnchor.name
            isExtension := listing.rowKind key == .extensions
            dris := variant.scope.dris, sourceSets := variant.sourceSets } := fun _ => rfl
  rw [reads, name_rowExtras, rowKind_eq_extensions]
  exact entries

/-- The rows of a section list its variants in order. -/
private theorem ensures_rows (listing : Listing) (scope : Scope) :
    Ensures (fun _ => True)
      ((listing.rows renderers).mapM fun row => Fragment.makeGroup scope row.1 row.2)
      fun nodes => nodes.flatMap Node.listedInRow = listing.shown := by
  rw [rows, shown]
  induction Declaration.rows listing.declarations with
  | nil => exact ensures_pure rfl
  | cons row rest ih =>
      obtain ⟨key, variants⟩ := row
      cases variants with
      | nil => exact ih
      | cons first others =>
          simp only [List.filterMap_cons, List.head?_cons, Option.map_some, List.mapM_cons]
          refine (ensures_row listing key first (first :: others) scope).bind fun node head => ?_
          refine ih.bind fun nodes tail => ensures_pure ?_
          rw [List.flatMap_cons, List.flatMap_cons, head, tail]

/-- The heading and the table of a section. -/
private theorem ensures_titledTable (listing : Listing) (heading overrides : Overrides)
    (titles : List (Fragment Build)) (scope : Scope) :
    Ensures (fun _ => True)
      ((Fragment.headerWith 2 listing.title heading .empty ++
        Fragment.table overrides titles none (listing.rows renderers) : Fragment Build) scope)
      fun nodes => nodes.head?.bind Node.headingTitle? = some listing.title ∧
        (nodes.flatMap Node.tableRows).flatMap Node.listedInRow = listing.shown := by
  have header : Ensures (fun _ => True)
      (Fragment.headerWith 2 listing.title heading .empty scope) fun nodes =>
        ∃ own inner, nodes = [.header own 2 [.text inner listing.title]] :=
    fun _ _ => ⟨⟨_, _, rfl⟩, trivial⟩
  have table : Ensures (fun _ => True)
      (Fragment.table overrides titles none (listing.rows renderers) scope)
      fun nodes => (nodes.flatMap Node.tableRows).flatMap Node.listedInRow = listing.shown :=
    (ensures_true _).bind fun _ _ => (ensures_true _).bind fun _ _ =>
      (ensures_rows listing (scope.override overrides)).bind fun rows listed =>
        ensures_pure (by simpa [Node.tableRows] using listed)
  refine Fragment.ensures_append header table ?_
  rintro _ more ⟨own, inner, rfl⟩ listed
  exact ⟨rfl, listed⟩

/-- A section lists what it shows under its title, and nothing under another. -/
private theorem ensures_fragment (listing : Listing) (scope : Scope) :
    Ensures (fun _ => True) (listing.fragment renderers scope)
      fun nodes => ∀ title, nodes.flatMap (Node.listedInSection title) =
        if listing.title = title then listing.shown else [] := by
  cases empty : listing.declarations.isEmpty with
  | true =>
      have nothing : listing.shown = [] := by
        rw [shown, List.isEmpty_iff.mp empty]
        rfl
      rw [fragment, empty, nothing]
      exact ensures_pure fun title => by rw [ite_self, List.flatMap_nil]
  | false =>
      rw [fragment, empty]
      refine (ensures_titledTable listing _ _ _ _).bind fun nodes holds => ensures_pure ?_
      obtain ⟨titled, listed⟩ := holds
      intro title
      have sectionTitle : ∀ own, (Node.group own nodes).sectionTitle? = some listing.title :=
        fun _ => titled
      rw [List.flatMap_singleton, Node.listedInSection, sectionTitle, ← listed]
      simp only [Option.some.injEq]
      rfl

/-- What sections list under a title. -/
def shownUnder (title : String) (listings : List Listing) : List ListedVariant :=
  listings.flatMap fun listing => if listing.title = title then listing.shown else []

theorem shownUnder_append (title : String) (first second : List Listing) :
    shownUnder title (first ++ second) = shownUnder title first ++ shownUnder title second :=
  List.flatMap_append

/-- Sections with other titles list nothing under a title. -/
theorem shownUnder_eq_nil {title : String} {listings : List Listing}
    (others : ∀ listing ∈ listings, listing.title ≠ title) : shownUnder title listings = [] :=
  List.flatMap_eq_nil_iff.mpr fun listing member => if_neg (others listing member)

private theorem ensures_forEach_fragment (listings : List Listing) (scope : Scope) :
    Ensures (fun _ => True) (Fragment.forEach listings (fragment renderers) scope)
      fun nodes => ∀ title, nodes.flatMap (Node.listedInSection title) =
        shownUnder title listings := by
  induction listings with
  | nil => exact ensures_pure fun _ => rfl
  | cons listing rest ih =>
      refine Fragment.ensures_append (listing.ensures_fragment scope) ih ?_
      intro nodes more first others title
      rw [List.flatMap_append, first, others]
      rfl

end Listing

/-! ## Sections that may be separated -/

open Listing

private theorem title_of_mem_separatedListings {separates : Bool} {title inheritedTitle : String}
    {kind : ListedKind} {scope : OrderedSet Dri} {members extensions : List Declaration}
    {listing : Listing}
    (member : listing ∈
      separatedListings separates title inheritedTitle kind scope members extensions) :
    listing.title = title ∨ listing.title = inheritedTitle := by
  rw [separatedListings] at member
  split at member <;> simp only [List.mem_cons, List.not_mem_nil, or_false] at member
  · exact member.imp (congrArg Listing.title) (congrArg Listing.title)
  · exact .inl (congrArg Listing.title member)

private theorem shownUnder_inherited_of_together {title inheritedTitle : String}
    (different : title ≠ inheritedTitle) (kind : ListedKind) (scope : OrderedSet Dri)
    (members extensions : List Declaration) :
    shownUnder inheritedTitle
      (separatedListings false title inheritedTitle kind scope members extensions) = [] :=
  shownUnder_eq_nil fun listing member => by
    rw [List.mem_singleton.mp member]
    exact different

/-- Whether or not they are separated, the two sections list the members and the extensions. -/
private theorem mem_shownUnder_separatedListings (separates : Bool) {title inheritedTitle : String}
    (different : title ≠ inheritedTitle) (kind : ListedKind) (scope : OrderedSet Dri)
    {members extensions : List Declaration}
    (noClass : ∀ declaration ∈ members ++ extensions, declaration.isClasslike = false)
    (entry : ListedVariant) :
    let listings := separatedListings separates title inheritedTitle kind scope members extensions
    entry ∈ shownUnder title listings ∨ entry ∈ shownUnder inheritedTitle listings ↔
      ∃ declaration ∈ members ++ extensions, declaration.listedVariant = entry := by
  intro listings
  cases separates with
  | false =>
      have own : shownUnder title listings = shown ⟨title, kind, members ++ extensions⟩ := by
        simp [listings, separatedListings, shownUnder]
      have inherited : shownUnder inheritedTitle listings = [] :=
        shownUnder_inherited_of_together different kind scope members extensions
      rw [own, inherited, mem_shown_iff noClass]
      simp
  | true =>
      let apart := members.filter (!·.isInherited) ++ extensions.filter (·.extendsTypeOf scope)
      let others := members.filter (·.isInherited) ++ extensions.filter (!·.extendsTypeOf scope)
      have own : shownUnder title listings = shown ⟨title, kind, apart⟩ := by
        simp [listings, separatedListings, shownUnder, different.symm, apart]
      have inherited : shownUnder inheritedTitle listings =
          shown ⟨inheritedTitle, kind, others⟩ := by
        simp [listings, separatedListings, shownUnder, different, others]
      have parts : ∀ declaration, declaration ∈ apart ∨ declaration ∈ others ↔
          declaration ∈ members ++ extensions := fun declaration => by
        cases isInherited : declaration.isInherited <;>
          cases extendsOwn : declaration.extendsTypeOf scope <;>
            simp [apart, others, isInherited, extendsOwn, or_comm]
      rw [own, inherited,
        mem_shown_iff fun declaration member => noClass declaration ((parts _).mp (.inl member)),
        mem_shown_iff fun declaration member => noClass declaration ((parts _).mp (.inr member))]
      simp only [← exists_or, ← or_and_right, parts]

/-- The sections of a content list the functions and the properties, the inherited ones and the
extensions of other types perhaps apart. -/
structure Content.Node.ListsMembers (content : Content.Node) (separates : Bool)
    (functions properties : List Declaration) : Prop where
  functions : ∀ entry, entry ∈ content.listedUnder "Functions" ∨
    entry ∈ content.listedUnder "Inherited functions" ↔
      ∃ declaration ∈ functions, declaration.listedVariant = entry
  properties : ∀ entry, entry ∈ content.listedUnder "Properties" ∨
    entry ∈ content.listedUnder "Inherited properties" ↔
      ∃ declaration ∈ properties, declaration.listedVariant = entry
  together : separates = false → content.listedUnder "Inherited functions" = [] ∧
    content.listedUnder "Inherited properties" = []

namespace Members

/-- The sections of a scope list its functions and properties with the extensions. -/
private theorem listsMembers_of_sections (settings : Settings) (scope : OrderedSet Dri)
    (extensions : List Declaration) {members : Members}
    (functions : ∀ function ∈ members.functions, CallableKind.function.includes function)
    (properties : ∀ property ∈ members.properties, CallableKind.property.includes property)
    {content : Content.Node}
    (listed : ∀ title, content.listedUnder title =
      shownUnder title (members.listings settings scope extensions)) :
    content.ListsMembers settings.separateInherited
      (members.functions ++ extensions.filter isFunction)
      (members.properties ++ extensions.filter isProperty) := by
  let functionSections := separatedListings settings.separateInherited "Functions"
    "Inherited functions" .functions scope members.functions (extensions.filter isFunction)
  let propertySections := separatedListings settings.separateInherited "Properties"
    "Inherited properties" .properties scope members.properties (extensions.filter isProperty)
  have whole : ∀ title, title ≠ "Types" → content.listedUnder title =
      shownUnder title propertySections ++ shownUnder title functionSections := by
    intro title notTypes
    rw [listed, ← shownUnder_append]
    exact (congrArg (· ++ _) (if_neg notTypes.symm)).trans (List.nil_append _)
  have inFunctions : ∀ title, title = "Functions" ∨ title = "Inherited functions" →
      content.listedUnder title = shownUnder title functionSections := by
    intro title isTitle
    rw [whole title (by rcases isTitle with rfl | rfl <;> decide), shownUnder_eq_nil,
      List.nil_append]
    intro listing member
    rcases title_of_mem_separatedListings member with own | own <;>
      rcases isTitle with rfl | rfl <;> rw [own] <;> decide
  have inProperties : ∀ title, title = "Properties" ∨ title = "Inherited properties" →
      content.listedUnder title = shownUnder title propertySections := by
    intro title isTitle
    have noFunctions : shownUnder title functionSections = [] := by
      refine shownUnder_eq_nil fun listing member => ?_
      rcases title_of_mem_separatedListings member with own | own <;>
        rcases isTitle with rfl | rfl <;> rw [own] <;> decide
    rw [whole title (by rcases isTitle with rfl | rfl <;> decide), noFunctions, List.append_nil]
  have noClass : ∀ (kind : CallableKind) {own : List Declaration},
      (∀ declaration ∈ own, kind.includes declaration) → ∀ declaration ∈
        own ++ extensions.filter kind.includes, declaration.isClasslike = false := by
    intro kind own ofKind declaration member
    have isOfKind : kind.includes declaration :=
      (List.mem_append.mp member).elim (ofKind declaration) fun isExtension =>
        (List.mem_filter.mp isExtension).2
    cases declaration with
    | classlike => cases kind <;> cases isOfKind
    | module | package | typeAlias | function | property | enumEntry => rfl
  refine ⟨fun entry => ?_, fun entry => ?_, fun isTogether => ⟨?_, ?_⟩⟩
  · rw [inFunctions _ (.inl rfl), inFunctions _ (.inr rfl)]
    exact mem_shownUnder_separatedListings _ (by decide) _ _ (noClass .function functions) entry
  · rw [inProperties _ (.inl rfl), inProperties _ (.inr rfl)]
    exact mem_shownUnder_separatedListings _ (by decide) _ _ (noClass .property properties) entry
  · rw [inFunctions _ (.inr rfl)]
    simp only [functionSections, isTogether]
    exact shownUnder_inherited_of_together (by decide) _ _ _ _
  · rw [inProperties _ (.inr rfl)]
    simp only [propertySections, isTogether]
    exact shownUnder_inherited_of_together (by decide) _ _ _ _

end Members

/-! ## Contents of pages -/

namespace Subject

/-- The functions that the sections of a page list: those of its declarations, and those among the
extensions of its classes. -/
def listedFunctions : Subject → List Declaration
  | .package decl => (Members.ofDeclarations [.package decl]).functions
  | .classlikes group | .enumEntries group =>
    (Members.ofDeclarations
        (group.filter fun type => type.isClasslike || type.isEnumEntry)).functions ++
      (listedExtensions group).filter isFunction
  | .module _ | .allTypes _ | .members _ => []

/-- The properties that the sections of a page list: those of its declarations, and those among the
extensions of its classes. -/
def listedProperties : Subject → List Declaration
  | .package decl => (Members.ofDeclarations [.package decl]).properties
  | .classlikes group | .enumEntries group =>
    (Members.ofDeclarations
        (group.filter fun type => type.isClasslike || type.isEnumEntry)).properties ++
      (listedExtensions group).filter isProperty
  | .module _ | .allTypes _ | .members _ => []

end Subject

namespace PageMaker

variable (maker : PageMaker)

/-- The sections of a page that has some list its functions and properties. -/
def ListsMembers (subject : Subject) (content : Content.Node) : Prop :=
  subject.kind = .package ∨ subject.kind = .classlike →
    content.ListsMembers maker.settings.separateInherited subject.listedFunctions
      subject.listedProperties

/-- The content of a scope lists its members in sections of their own. -/
private theorem ensures_listedScope (dris : OrderedSet Dri) (sourceSets : SourceSets)
    (extensions : List Declaration) (members : Members) :
    Ensures (fun _ => True) (maker.scopeContent dris sourceSets extensions members) fun scope =>
      ∀ title, scope.children.flatMap (Node.listedInSection title) =
        shownUnder title (members.listings maker.settings dris extensions) :=
  (ensures_forEach_fragment _ _).bind fun _ listed => ensures_pure listed

/-- The tabs of a content are the nodes of its last part. -/
theorem ensures_tabs (dris : OrderedSet Dri) (sourceSets : SourceSets) (cover : Fragment Build)
    (overrides : Overrides) (parts : List Node) :
    Ensures (fun _ => True) (makeContent dris sourceSets (cover ++ .group overrides (.nodes parts)))
      fun content => content.tabs = parts := by
  have last : ∀ inner, Ensures (fun _ => True) (Fragment.group overrides (.nodes parts) inner)
      fun nodes => ∃ own, nodes = [.group own parts] :=
    fun _ _ _ => ⟨⟨_, rfl⟩, trivial⟩
  have body : ∀ inner, Ensures (fun _ => True)
      ((cover ++ .group overrides (.nodes parts)) inner) fun nodes =>
        nodes.getLast?.map Node.children = some parts := by
    intro inner
    refine Fragment.ensures_append (ensures_true _) (last inner) ?_
    rintro nodes _ - ⟨own, rfl⟩
    simp [Node.children]
  refine (body _).bind fun nodes isLast => ensures_pure ?_
  rw [Node.tabs, Node.children, isLast]
  rfl

/-- The sections of a content whose last part is for tabs are those of the last tab. -/
private theorem ensures_lastTab (dris : OrderedSet Dri) (sourceSets : SourceSets)
    (cover : Fragment Build) (overrides : Overrides) (others : List Node) (scope : Node) :
    Ensures (fun _ => True)
      (makeContent dris sourceSets (cover ++ .group overrides (.nodes (others ++ [scope]))))
      fun content => content.sections = scope.children := by
  refine (ensures_tabs dris sourceSets cover overrides (others ++ [scope])).weaken
    fun content tabs => ?_
  rw [Node.sections_eq_children_of_tabs, tabs, List.getLast?_concat]
  rfl

private theorem ensures_listedPackage (decl : PackageDecl) :
    Ensures (fun _ => True) (maker.packageContent decl) (maker.ListsMembers (.package decl)) := by
  refine (maker.ensures_listedScope _ _ _ _).bind fun scope listed => ?_
  refine (ensures_true _).bind fun description _ => ?_
  refine (ensures_lastTab _ _ _ _ [] scope).weaken fun content sections _ => ?_
  have lists := Members.listsMembers_of_sections maker.settings (.singleton decl.common.dri) []
    (fun _ => CallableKind.includes_of_mem_flatMap .function)
    (fun _ => CallableKind.includes_of_mem_flatMap .property)
    fun title => by rw [Node.listedUnder, sections, listed]
  simp only [List.filter_nil, List.append_nil] at lists
  exact lists

private theorem ensures_listedTypes (group : List Declaration) {subject : Subject}
    (isTypes : subject = .classlikes group ∨ subject = .enumEntries group) :
    Ensures (fun _ => True) (maker.typesContent (listedExtensions group) group)
      (maker.ListsMembers subject) := by
  refine (maker.ensures_listedScope _ _ _ _).bind fun scope listed => ?_
  refine (ensures_true _).bind fun constructors _ => (ensures_true _).bind fun entries _ => ?_
  refine (ensures_true _).bind fun described _ => ?_
  refine (ensures_lastTab _ _ _ _ _ scope).weaken fun content sections _ => ?_
  have lists := Members.listsMembers_of_sections maker.settings (drisOf group)
    (listedExtensions group) (fun _ => CallableKind.includes_of_mem_flatMap .function)
    (fun _ => CallableKind.includes_of_mem_flatMap .property)
    fun title => by rw [Node.listedUnder, sections, listed]
  rcases isTypes with rfl | rfl <;> exact lists

/-- The content of a page that succeeds lists the functions and properties of the page. -/
theorem ensures_listsMembers (subject : Subject) :
    EnsuresUnlessFailed (fun _ => True) (maker.content subject) (maker.ListsMembers subject) := by
  cases subject with
  | module | allTypes | members =>
      exact (ensuresUnlessFailed_true _).weaken fun _ _ content _ isKind => by
        simp [Subject.kind] at isKind
  | package decl => exact (maker.ensures_listedPackage decl).lift
  | classlikes group | enumEntries group =>
      refine (ensuresUnlessFailed_check fun _ checked => checked).bind fun extensions checked => ?_
      rw [eq_listedExtensions_of_checked checked]
      exact (maker.ensures_listedTypes group (by simp)).lift

end PageMaker

end DocPages
