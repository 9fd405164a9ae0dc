import DocPages.Proofs.Page.Building
import DocPages.Proofs.Page.Listed
import DocPages.Proofs.Page.Passes
import DocPages.Proofs.Signature.Links

/-!
# Navigation

Every page links to the pages directly below it. Child pages come from groups of siblings and links
from the listings of a page, and both are made from the declarations that the page holds: what
stands in a listing for a declaration has the identity of its page.
-/

namespace DocPages

open Declaration Build

/-- The module can be navigated: everything has a source set, only enum classes have entries, and a
type alias that shares its name with a class of its package shares its identity. -/
structure ModuleDecl.IsNavigable (decl : ModuleDecl) : Prop where
  sourceSets : ∀ declaration ∈ decl.declarations, declaration.sourceSets.toList ≠ []
  constructorSourceSets : ∀ declaration ∈ decl.declarations,
    ∀ constructor ∈ declaration.constructors, constructor.sourceSets.toList ≠ []
  entries : ∀ type ∈ decl.declarations.filterMap classlike?,
    type.entries ≠ [] → type.kind = .enumKind
  aliases : ∀ package ∈ decl.packages, ∀ synonym ∈ package.typeAliases,
    ∀ type ∈ package.classlikes,
      synonym.common.name = type.common.name → synonym.common.dri = type.common.dri

/-! ## Where declarations come from -/

/-- The declaration is one of the module, up to its name. -/
def Declaration.IsDeclaredIn (decl : ModuleDecl) (declaration : Declaration) : Prop :=
  ∃ source ∈ decl.declarations, source.unrenamed = declaration.unrenamed

/-- The declarations on the page are declared in the module. -/
def Subject.BelongsTo (decl : ModuleDecl) : Subject → Prop
  | .module other => other = decl
  | .package shown => shown ∈ decl.packages
  | .classlikes group | .enumEntries group =>
    ∀ declaration ∈ group, declaration.IsDeclaredIn decl
  | .allTypes _ | .members _ => True

section

variable {decl : ModuleDecl}

namespace Declaration

theorem isDeclaredIn_of_mem {declaration : Declaration} (member : declaration ∈ decl.declarations) :
    declaration.IsDeclaredIn decl := ⟨declaration, member, rfl⟩

theorem IsDeclaredIn.of_unrenamed_eq {declaration other : Declaration}
    (declared : declaration.IsDeclaredIn decl) (same : declaration.unrenamed = other.unrenamed) :
    other.IsDeclaredIn decl := by
  obtain ⟨source, member, equal⟩ := declared
  exact ⟨source, member, equal.trans same⟩

/-- The members of a declaration of the module are declarations of the module. -/
theorem IsDeclaredIn.mem_of_mem_members {holder inner : Declaration}
    (declared : holder.IsDeclaredIn decl)
    (member : inner ∈ holder.memberTypes ∨ inner ∈ holder.enumEntries ∨
      inner ∈ holder.memberFunctions ∨ inner ∈ holder.memberProperties) :
    inner ∈ decl.declarations := by
  obtain ⟨source, isSource, same⟩ := declared
  refine ModuleDecl.mem_declarations_of_within ?_ isSource
  rw [← memberTypes_unrenamed, ← enumEntries_unrenamed, ← memberFunctions_unrenamed,
    ← memberProperties_unrenamed, ← same, memberTypes_unrenamed, enumEntries_unrenamed,
    memberFunctions_unrenamed, memberProperties_unrenamed] at member
  rw [within_eq]
  simp only [List.mem_cons, List.mem_append, List.mem_flatMap]
  rcases member with isType | isEntry | isFunction | isProperty
  · exact .inr (.inl (.inl (.inl ⟨inner, isType, self_mem_within inner⟩)))
  · exact .inr (.inl (.inl (.inr ⟨inner, isEntry, self_mem_within inner⟩)))
  · exact .inr (.inl (.inr isFunction))
  · exact .inr (.inr isProperty)

theorem hasSignature_of_mem_types {declaration type : Declaration}
    (member : type ∈ declaration.memberTypes) : type.hasSignature := by
  have kind := isClasslike_or_isTypeAlias_of_mem_memberTypes member
  cases type <;> simp_all [isClasslike, isTypeAlias, hasSignature]

theorem hasSignature_of_mem_callables {declaration callable : Declaration}
    (member : callable ∈ declaration.memberFunctions ∨ callable ∈ declaration.memberProperties) :
    callable.hasSignature ∧ callable.isTypeAlias = false := by
  have isCallable : callable.isFunction ∨ callable.isProperty :=
    member.imp (CallableKind.includes_of_mem_members .function)
      (CallableKind.includes_of_mem_members .property)
  cases callable with
  | function | property => exact ⟨rfl, rfl⟩
  | module | package | classlike | typeAlias | enumEntry =>
      rcases isCallable with other | other <;> cases other

theorem hasSignature_of_isCallable {declaration : Declaration}
    (callable : declaration.isProperty ∨ declaration.isFunction) : declaration.hasSignature := by
  cases declaration <;> simp_all [isProperty, isFunction, hasSignature]

end Declaration

namespace Subject

/-- The declarations whose members have pages below a page are declared in the module. -/
theorem BelongsTo.isDeclaredIn_of_mem_holders {subject : Subject} (belongs : subject.BelongsTo decl)
    {holder : Declaration} (member : holder ∈ subject.holders) : holder.IsDeclaredIn decl := by
  cases subject with
  | package package =>
      obtain rfl := List.mem_singleton.mp member
      exact isDeclaredIn_of_mem (List.mem_flatMap.mpr ⟨package, belongs, self_mem_within _⟩)
  | classlikes group | enumEntries group => exact belongs holder (List.mem_filter.mp member).1
  | module | allTypes | members => exact (List.not_mem_nil member).elim

end Subject

/-- Pages below a page of the module are pages of the module. -/
theorem Arrangement.belongsTo_of_places {arrangement : Arrangement} {subject placed : Subject}
    (belongs : subject.BelongsTo decl) (places : arrangement.Places subject placed) :
    placed.BelongsTo decl := by
  cases places with
  | package member => exact belongs ▸ member
  | allTypes | constructor | functions | properties => trivial
  | types isGroup =>
      intro declaration member
      obtain ⟨type, isType, same⟩ := arrangement.exists_sibling_of_mem_typeGroups isGroup member
      obtain ⟨holder, isHolder, inHolder⟩ := List.mem_flatMap.mp isType
      have declared := (belongs.isDeclaredIn_of_mem_holders isHolder).mem_of_mem_members
        (.inl inHolder)
      exact (isDeclaredIn_of_mem declared).of_unrenamed_eq same
  | entries isGroup =>
      intro declaration member
      obtain ⟨entry, isEntry, same⟩ := arrangement.exists_sibling_of_mem_groups isGroup member
      obtain ⟨holder, isHolder, inHolder⟩ := List.mem_flatMap.mp isEntry
      have declared := (belongs.isDeclaredIn_of_mem_holders isHolder).mem_of_mem_members
        (.inr (.inl inHolder))
      exact (isDeclaredIn_of_mem declared).of_unrenamed_eq same

/-! ## Links to members -/

namespace PageMaker

variable {maker : PageMaker} {subject : Subject} {node : Content.Node}

private theorem filter_declarations_eq_holders (proper : subject.IsProper)
    (isTypes : subject.kind = .classlike) :
    (subject.declarations.filter fun type => type.isClasslike || type.isEnumEntry) =
      subject.holders := by
  cases subject with
  | classlikes group | enumEntries group =>
      refine List.filter_congr fun declaration member => ?_
      have kind := proper declaration member
      cases declaration <;> simp_all [isClasslike, isTypeAlias, isEnumEntry]
  | module | allTypes | package | members => cases isTypes

/-- The listings of a page show the members of its holders, beside extensions with signatures. -/
private theorem Displays.exists_listedMembers (displays : maker.Displays signed subject node)
    (proper : subject.IsProper) (holds : subject.holders ≠ []) :
    ∃ (dris : OrderedSet Dri) (extensions : List Declaration),
      (∀ extension ∈ extensions, extension.hasSignature) ∧
        (maker.listedMembers dris extensions (.ofDeclarations subject.holders)).flatMap signed ⊆
          node.links := by
  cases subject with
  | package decl => exact ⟨_, [], fun _ member => (List.not_mem_nil member).elim, displays⟩
  | classlikes group | enumEntries group =>
      obtain ⟨extensions, kinds, linked⟩ := displays
      have sameHolders := filter_declarations_eq_holders proper rfl
      rw [Subject.declarations] at sameHolders
      rw [sameHolders, List.flatMap_append] at linked
      exact ⟨_, extensions, fun extension member =>
        hasSignature_of_isCallable (kinds extension member), (List.append_subset.mp linked).2⟩
  | module | allTypes | members => exact absurd rfl holds

private theorem mem_links_of_variant {dris : OrderedSet Dri} {extensions : List Declaration}
    {members : Members}
    (linked : (maker.listedMembers dris extensions members).flatMap signed ⊆ node.links)
    {listing : Listing} (isListing : listing ∈ members.listings maker.settings dris extensions)
    {variant : Declaration} (isListed : variant ∈ listedVariants listing.declarations)
    (shown : variant.hasSignature) (declared : variant.sourceSets.toList ≠ []) :
    variant.dri ∈ node.links := by
  refine linked (List.mem_flatMap.mpr ⟨variant, ?_, ?_⟩)
  · exact List.mem_flatMap.mpr ⟨listing, isListing, isListed⟩
  · rw [signed_eq shown declared]
    exact List.mem_singleton_self _

/-- A listed declaration that is no type alias is linked to if everything listed has a signature. -/
private theorem mem_links_of_listed {dris : OrderedSet Dri} {extensions : List Declaration}
    {members : Members}
    (linked : (maker.listedMembers dris extensions members).flatMap signed ⊆ node.links)
    {listing : Listing} (isListing : listing ∈ members.listings maker.settings dris extensions)
    (signatures : ∀ other ∈ listing.declarations, other.hasSignature) {declaration : Declaration}
    (listed : declaration ∈ listing.declarations) (noAlias : declaration.isTypeAlias = false)
    (declared : declaration.sourceSets.toList ≠ []) : declaration.dri ∈ node.links := by
  obtain ⟨shown, -, stands, variant, isListed, inListing, sameKey⟩ :=
    exists_mem_listedVariants listed
  obtain rfl : shown = declaration := by simpa [noAlias] using stands
  have sameDri : variant.dri = shown.dri := congrArg Prod.fst sameKey
  have sameSourceSets : variant.sourceSets = shown.sourceSets := congrArg Prod.snd sameKey
  rw [← sameDri]
  exact mem_links_of_variant linked isListing isListed (signatures variant inListing)
    (by rwa [sameSourceSets])

/-- A page of siblings is linked to if all of them are. -/
private theorem exists_mem_links_of_group {group siblings : List Declaration} {dri : Dri}
    (uniform : HaveDri dri group)
    (grouped : ∀ declaration ∈ group, ∃ sibling ∈ siblings,
      sibling.unrenamed = declaration.unrenamed)
    (linked : ∀ sibling ∈ siblings, sibling.dri ∈ node.links) :
    ∃ dri ∈ (drisOf group).toList, dri ∈ node.links := by
  obtain ⟨first, inGroup⟩ := List.exists_mem_of_ne_nil _ uniform.nonempty
  obtain ⟨sibling, isSibling, same⟩ := grouped first inGroup
  have sameDri : sibling.dri = dri := by
    rw [← uniform.same first inGroup, ← dri_unrenamed, same, dri_unrenamed]
  rw [uniform.toList_drisOf]
  exact ⟨dri, List.mem_singleton_self _, sameDri ▸ linked sibling isSibling⟩

private theorem exists_mem_links_of_mem_groups {group siblings : List Declaration}
    (isGroup : group ∈ maker.groups siblings)
    (linked : ∀ sibling ∈ siblings, sibling.dri ∈ node.links) :
    ∃ dri ∈ (drisOf group).toList, dri ∈ node.links := by
  obtain ⟨dri, uniform⟩ := maker.haveDri_of_mem_groups isGroup
  exact exists_mem_links_of_group uniform (fun _ => maker.exists_sibling_of_mem_groups isGroup)
    linked

variable (navigable : decl.IsNavigable) (belongs : subject.BelongsTo decl)

include navigable belongs

/-- A type alias on a page has the identity of the classes that share its name. -/
private theorem dri_eq_of_hidden {synonym type : Declaration}
    (isSynonym : synonym ∈ subject.holders.flatMap memberTypes) (isAlias : synonym.isTypeAlias)
    (isType : type ∈ subject.holders.flatMap memberTypes) (isClass : type.isClasslike)
    (sameName : type.name? = synonym.name?) : type.dri = synonym.dri := by
  obtain ⟨holder, isHolder, inHolder⟩ := List.mem_flatMap.mp isSynonym
  cases subject with
  | package shown =>
      obtain rfl := List.mem_singleton.mp isHolder
      have isShownType : type ∈ (Declaration.package shown).memberTypes := by
        simpa [Subject.holders] using isType
      simp only [memberTypes, List.mem_append, List.mem_map] at inHolder isShownType
      rcases inHolder with ⟨other, -, rfl⟩ | ⟨declared, inPackage, rfl⟩
      · simp [isTypeAlias] at isAlias
      · rcases isShownType with ⟨namesake, isNamesake, rfl⟩ | ⟨other, -, rfl⟩
        · exact (navigable.aliases shown belongs declared inPackage namesake isNamesake
            sameName.symm).symm
        · simp [isClasslike] at isClass
  | classlikes group | enumEntries group =>
      -- Types alone hold classes alone.
      have kind := (List.mem_filter.mp isHolder).2
      cases holder <;> simp_all [isClasslike, isEnumEntry, memberTypes]
      all_goals
        obtain ⟨other, -, rfl⟩ := inHolder
        simp [isTypeAlias] at isAlias
  | module | allTypes | members => exact (List.not_mem_nil isHolder).elim

/-- The content of a page links to the types on the pages below it. -/
private theorem mem_links_of_mem_types (displays : maker.Displays signed subject node)
    (proper : subject.IsProper) {type : Declaration}
    (member : type ∈ subject.holders.flatMap memberTypes) : type.dri ∈ node.links := by
  have holds : subject.holders ≠ [] := by
    rintro none
    simp [none] at member
  obtain ⟨dris, extensions, -, linked⟩ := displays.exists_listedMembers proper holds
  obtain ⟨shown, isShown, stands, variant, isListed, inTypes, sameKey⟩ :=
    exists_mem_listedVariants member
  obtain ⟨holder, isHolder, inHolder⟩ := List.mem_flatMap.mp inTypes
  have declared := (belongs.isDeclaredIn_of_mem_holders isHolder).mem_of_mem_members (.inl inHolder)
  have isLinked := mem_links_of_variant linked List.mem_cons_self isListed
    (hasSignature_of_mem_types inHolder) (navigable.sourceSets variant declared)
  have sameDri : shown.dri = type.dri := by
    rcases stands with rfl | ⟨isAlias, isClass, sameName⟩
    · rfl
    · exact dri_eq_of_hidden navigable belongs member isAlias isShown isClass sameName
  have variantDri : variant.dri = shown.dri := congrArg Prod.fst sameKey
  rwa [variantDri, sameDri] at isLinked

/-- The content of a page links to the functions and properties on the pages below it. -/
private theorem mem_links_of_mem_callables (displays : maker.Displays signed subject node)
    (proper : subject.IsProper) {callable : Declaration}
    (member : callable ∈ (subject.holders.flatMap memberFunctions).filter (!·.isInherited) ∨
      callable ∈ (subject.holders.flatMap memberProperties).filter (!·.isInherited)) :
    callable.dri ∈ node.links := by
  have inHolder : ∀ other : Declaration, other ∈ subject.holders.flatMap memberFunctions ∨
      other ∈ subject.holders.flatMap memberProperties → ∃ holder ∈ subject.holders,
        other ∈ holder.memberFunctions ∨ other ∈ holder.memberProperties := by
    intro other isMember
    simp only [List.mem_flatMap, ← exists_or, ← and_or_left] at isMember
    exact isMember
  obtain ⟨isMember, own⟩ : (callable ∈ subject.holders.flatMap memberFunctions ∨
      callable ∈ subject.holders.flatMap memberProperties) ∧ callable.isInherited = false := by
    rw [List.mem_filter, List.mem_filter, ← or_and_right] at member
    simpa using member
  obtain ⟨holder, isHolder, inMembers⟩ := inHolder callable isMember
  obtain ⟨dris, extensions, extensionsShown, linked⟩ :=
    displays.exists_listedMembers proper (List.ne_nil_of_mem isHolder)
  obtain ⟨listing, isListing, listed, others⟩ := Members.exists_listing_of_mem maker.settings dris
    extensions (.ofDeclarations subject.holders) isMember own
  have declared := (belongs.isDeclaredIn_of_mem_holders isHolder).mem_of_mem_members
    (.inr (.inr inMembers))
  refine mem_links_of_listed linked isListing (fun other isListed => ?_) listed
    (hasSignature_of_mem_callables inMembers).2 (navigable.sourceSets callable declared)
  rcases others other isListed with isMember | isExtension
  · obtain ⟨otherHolder, -, inOther⟩ := inHolder other isMember
    exact (hasSignature_of_mem_callables inOther).1
  · exact extensionsShown other isExtension

/-- The content of a page links to the constructors on the pages below it. -/
private theorem mem_links_of_mem_constructors (displays : maker.Displays signed subject node)
    {constructor : Declaration} (member : constructor ∈ subject.constructors) :
    constructor.dri ∈ node.links := by
  cases subject with
  | classlikes group =>
      obtain ⟨extensions, -, linked⟩ := displays
      obtain ⟨type, inGroup, inType⟩ := exists_of_mem_shownConstructors member
      obtain ⟨source, declared, same⟩ := belongs type inGroup
      have shown : constructor.hasSignature := by
        have callable := isFunction_of_mem_constructors inType
        cases constructor <;> simp_all [isFunction, hasSignature]
      have inSource : constructor ∈ source.constructors := by
        rwa [← constructors_unrenamed, same, constructors_unrenamed]
      refine linked (List.mem_flatMap.mpr ⟨constructor, ?_, ?_⟩)
      · exact List.mem_append_left _ (List.mem_append_left _ member)
      · rw [signed_eq shown (navigable.constructorSourceSets source declared constructor inSource)]
        exact List.mem_singleton_self _
  | module | allTypes | package | enumEntries | members => exact (List.not_mem_nil member).elim

omit belongs in
/-- The page of an enum class lists its entries. -/
private theorem listedEntries_eq {holder : Declaration} (declared : holder.IsDeclaredIn decl) :
    holder.listedEntries = holder.enumEntries := by
  obtain ⟨source, member, same⟩ := declared
  rw [← listedEntries_unrenamed, ← enumEntries_unrenamed, ← same, listedEntries_unrenamed,
    enumEntries_unrenamed]
  cases source with
  | classlike type =>
      have isType : type ∈ decl.declarations.filterMap classlike? :=
        List.mem_filterMap.mpr ⟨_, member, rfl⟩
      by_cases none : type.entries = []
      · simp [listedEntries, enumEntries, none]
      · simp [listedEntries, enumEntries, navigable.entries type isType none]
  | module | package | typeAlias | function | property | enumEntry => rfl

/-- The content of a page links to the entries on the pages below it. -/
private theorem mem_links_of_mem_entries (displays : maker.Displays signed subject node)
    {entry : Declaration} (member : entry ∈ subject.holders.flatMap enumEntries) :
    entry.dri ∈ node.links := by
  obtain ⟨holder, isHolder, inHolder⟩ := List.mem_flatMap.mp member
  have holderDeclared := belongs.isDeclaredIn_of_mem_holders isHolder
  have declared := holderDeclared.mem_of_mem_members (.inr (.inl inHolder))
  have shown : entry.hasSignature := by
    have kind := isEnumEntry_of_mem_enumEntries inHolder
    cases entry <;> simp_all [isEnumEntry, hasSignature]
  cases subject with
  | classlikes group =>
      obtain ⟨extensions, -, linked⟩ := displays
      rw [← listedEntries_eq navigable holderDeclared] at inHolder
      refine linked (List.mem_flatMap.mpr ⟨entry, ?_, ?_⟩)
      · refine List.mem_append_left _ (List.mem_append_right _ (List.mem_flatMap.mpr ?_))
        exact ⟨holder, (List.mem_filter.mp isHolder).1, inHolder⟩
      · rw [signed_eq shown (navigable.sourceSets entry declared)]
        exact List.mem_singleton_self _
  | package other =>
      obtain rfl := List.mem_singleton.mp isHolder
      exact (List.not_mem_nil inHolder).elim
  | enumEntries group =>
      have kind := (List.mem_filter.mp isHolder).2
      cases holder <;> simp_all [isEnumEntry, enumEntries]
  | module | allTypes | members => exact (List.not_mem_nil isHolder).elim

/-- The content of a page links to every page directly below it. -/
theorem exists_mem_links_of_places (displays : maker.Displays signed subject node)
    (proper : subject.IsProper) {placed : Subject} (places : maker.Places subject placed) :
    ∃ dri ∈ placed.dris.toList, dri ∈ node.links := by
  cases places with
  | @package decl package member =>
      refine ⟨package.common.dri, List.mem_singleton_self _, displays ?_⟩
      exact List.mem_append_left _ (List.mem_map_of_mem member)
  | @allTypes decl listed =>
      refine ⟨.allTypes, List.mem_singleton_self _, displays ?_⟩
      rw [if_pos listed]
      exact List.mem_append_right _ (List.mem_singleton_self _)
  | @constructor subject constructor member =>
      refine ⟨constructor.dri, ?_, mem_links_of_mem_constructors navigable belongs displays member⟩
      rw [Subject.dris, (haveDri_singleton constructor).toList_drisOf]
      exact List.mem_singleton_self _
  | types isGroup =>
      obtain ⟨dri, uniform⟩ := maker.haveDri_of_mem_typeGroups isGroup
      exact exists_mem_links_of_group uniform
        (fun _ => maker.exists_sibling_of_mem_typeGroups isGroup)
        fun _ => mem_links_of_mem_types navigable belongs displays proper
  | functions isGroup =>
      exact exists_mem_links_of_mem_groups isGroup fun _ isOwn =>
        mem_links_of_mem_callables navigable belongs displays proper (.inl isOwn)
  | properties isGroup =>
      exact exists_mem_links_of_mem_groups isGroup fun _ isOwn =>
        mem_links_of_mem_callables navigable belongs displays proper (.inr isOwn)
  | entries isGroup =>
      exact exists_mem_links_of_mem_groups isGroup fun _ =>
        mem_links_of_mem_entries navigable belongs displays

end PageMaker

end

/-! ## Navigable trees -/

namespace Page

/-- Every page of the tree links to the pages directly below it. -/
def IsNavigable (page : Page) : Prop :=
  ∀ reached ∈ page.all, ∀ child ∈ reached.children,
    ∃ dri ∈ child.dris.toList, dri ∈ reached.content.links

/-- A tree is navigable if its root links to its children and they are navigable. -/
theorem isNavigable_iff {page : Page} :
    page.IsNavigable ↔
      (∀ child ∈ page.children, ∃ dri ∈ child.dris.toList, dri ∈ page.content.links) ∧
        ∀ child ∈ page.children, child.IsNavigable := by
  rw [IsNavigable]
  rw [all_eq, List.forall_mem_cons]
  refine and_congr_right fun _ => ⟨fun holds child member reached inChild => ?_,
    fun holds reached inChildren => ?_⟩
  · exact holds reached (List.mem_flatMap.mpr ⟨child, member, inChild⟩)
  · obtain ⟨child, member, inChild⟩ := List.mem_flatMap.mp inChildren
    exact holds child member reached inChild

/-- A change of contents that keeps their links keeps a tree navigable. -/
theorem IsNavigable.changeContents {change : Nat → Content.Node → Content.Node}
    (keepsLinks : ∀ depth content, (change depth content).links = content.links) {page : Page}
    (navigable : page.IsNavigable) (depth : Nat) :
    (page.changeContents change depth).IsNavigable := by
  induction page using childInduction generalizing depth with
  | step page ih =>
      obtain ⟨linked, below⟩ := isNavigable_iff.mp navigable
      rw [changeContents_eq, isNavigable_iff]
      refine ⟨fun child member => ?_, fun child member => ?_⟩
      · obtain ⟨original, isChild, rfl⟩ := List.mem_map.mp member
        rw [changeContents_eq, keepsLinks]
        exact linked original isChild
      · obtain ⟨original, isChild, rfl⟩ := List.mem_map.mp member
        exact ih original isChild (below original isChild) (depth + 1)

end Page

/-- Any sequence of passes keeps a tree navigable. -/
theorem Pass.isNavigable_applyAll (passes : List Pass) {page : Page}
    (navigable : page.IsNavigable) : (applyAll passes page).1.IsNavigable := by
  rw [applyAll_fst_eq]
  refine navigable.changeContents (fun depth content => ?_) 0
  rw [finish_eq_mapAll]
  exact Content.Node.links_mapAll (fun node => (retouches_foldl passes depth node).links_eq) content

/-! ## Modules -/

namespace PageMaker

variable (maker : PageMaker)

/-- The pages that are built for a module are navigable, if the renderers only put signatures under
their keys. -/
theorem ensures_isNavigable {decl : ModuleDecl} (navigable : decl.IsNavigable)
    (renders : ∀ renderer ∈ maker.renderers, renderer.Keeps Session.IsSound) :
    EnsuresUnlessFailed Session.IsSound (maker.build (.module decl)) Page.IsNavigable := by
  have content : ∀ subject : Subject, subject.IsProper ∧ subject.BelongsTo decl →
      EnsuresUnlessFailed Session.IsSound (maker.content subject)
        (maker.Displays signed subject) := fun subject _ =>
    maker.ensures_content Content.Fragment.shows_signature renders subject
  have below : ∀ subject : Subject, subject.IsProper ∧ subject.BelongsTo decl →
      ∀ placed ∈ maker.below subject, placed.IsProper ∧ placed.BelongsTo decl := by
    intro subject ⟨_, belongs⟩ placed member
    have places := maker.places_of_mem_below member
    exact ⟨maker.isProper_of_places places, Arrangement.belongsTo_of_places belongs places⟩
  have step : ∀ subject dri content children,
      subject.IsProper ∧ subject.BelongsTo decl → subject.HasDri dri →
        maker.Displays signed subject content →
          List.Forall₂ (fun placed page => page.dris = placed.dris ∧ Page.IsNavigable page)
            (maker.below subject) children →
            (subject.page content children).dris = subject.dris ∧
              (subject.page content children).IsNavigable := by
    intro subject dri content children ⟨proper, belongs⟩ _ displays built
    refine ⟨rfl, Page.isNavigable_iff.mpr ⟨fun child member => ?_, fun child member => ?_⟩⟩
    · obtain ⟨placed, isBelow, sameDris, -⟩ := exists_related_of_mem built.flip member
      rw [sameDris]
      exact exists_mem_links_of_places navigable belongs displays proper
        (maker.places_of_mem_below isBelow)
    · obtain ⟨placed, -, -, isNavigable⟩ := exists_related_of_mem built.flip member
      exact isNavigable
  exact (maker.ensures_build below content step (Subject.hasDri_module decl)
    ⟨trivial, rfl⟩).weaken fun _ holds page built => (holds page built).2

end PageMaker

namespace ModuleDecl

/-- In the page tree of a module that can be navigated, every page links to the pages directly below
it. -/
theorem links_of_generate {settings : Settings} {decl : ModuleDecl} {generated : Generated}
    (navigable : decl.IsNavigable) (success : decl.generate settings = .ok generated) :
    ∀ page ∈ generated.root.all, ∀ child ∈ page.children,
      ∃ dri ∈ child.dris.toList, dri ∈ page.content.links := by
  have renders : ∀ renderer ∈ (decl.pageMaker settings []).renderers,
      renderer.Keeps Session.IsSound := by
    intro renderer member
    obtain rfl := List.mem_singleton.mp member
    exact TagRenderer.keeps_sinceKotlin Session.IsSound
  have built := ((decl.pageMaker settings []).ensures_isNavigable navigable renders {}
    Session.isSound_empty).1
  obtain ⟨page, session, run, root, -⟩ := exists_build_of_generate success
  rw [root]
  exact Pass.isNavigable_applyAll Pass.standard (built page (congrArg Prod.fst run))

/-- The module can be navigated, type alias and enum class included. -/
theorem links_of_generate_shapes :
    shapes.IsNavigable ∧ ∃ generated, shapes.generate {} = .ok generated ∧
      ∀ page ∈ generated.root.all, ∀ child ∈ page.children,
        ∃ dri ∈ child.dris.toList, dri ∈ page.content.links := by
  have navigable : shapes.IsNavigable :=
    { sourceSets := by decide
      constructorSourceSets := by decide
      entries := by decide
      aliases := by decide }
  obtain ⟨page, session, built⟩ := exists_page_shapes {}
  have run : ((shapes.pageMaker {} []).build (.module shapes)).run {} = (.ok page, session) := built
  obtain ⟨generated, success⟩ : ∃ generated, shapes.generate {} = .ok generated := by
    rw [generate, generateWith, run]
    exact ⟨_, rfl⟩
  exact ⟨navigable, generated, success, links_of_generate navigable success⟩

end ModuleDecl

end DocPages
