import DocPages.Proofs.Page.Outlines
import DocPages.Proofs.Page.Passes
import DocPages.Proofs.Page.Sources

/-!
# Covered pages

A page is covered if no node of its content claims a source set that none of its children carries.
Signatures, constructors, entries and listings have the source sets of what they show and cover what
encloses them. What is left are descriptions and briefs that some source sets lack, tables of a
module that some of its source sets add nothing to, and extensions for more source sets than the
class that lists them.
-/

namespace DocPages

open Content Declaration Build

namespace Declaration

@[simp]
theorem hasSignature_unrenamed (declaration : Declaration) :
    declaration.unrenamed.hasSignature = declaration.hasSignature := by
  cases declaration <;> rfl

theorem mem_sourceSetsOf {declarations : List Declaration} {id : SourceSetId} :
    id ∈ (sourceSetsOf declarations).toList ↔
      ∃ declaration ∈ declarations, id ∈ declaration.sourceSets.toList := by
  simp [sourceSetsOf]

theorem mem_sourceSetsOf_append {left right : List Declaration} {id : SourceSetId} :
    id ∈ (sourceSetsOf (left ++ right)).toList ↔
      id ∈ (sourceSetsOf left).toList ∨ id ∈ (sourceSetsOf right).toList := by
  simp [sourceSetsOf]

end Declaration

/-! ## What pages claim and support -/

/-- The types that the page of all types of a module lists. -/
def ModuleDecl.listedTypes (decl : ModuleDecl) : List Declaration :=
  standaloneTypes (decl.packages.flatMap fun package => (Declaration.package package).memberTypes)

/-- The content of a page of a module, of a kind and for some declarations, supports the source sets
that it claims: descriptions and briefs are there for all source sets or for none, the tables of a
module have rows for all of its source sets, and what a group of types shows is there for all source
sets of its extensions. -/
def PageMaker.Supports (maker : PageMaker) (decl : ModuleDecl) :
    PageKind → List Declaration → Prop
  | .module, declarations =>
    (∀ declaration ∈ declarations, declaration.IsDescribed) ∧
      (decl.packages ≠ [] → ∀ id ∈ decl.sourceSetIds.toList,
        ∃ package ∈ decl.packages, id ∈ package.common.sourceSets.toList)
  | .allTypes, _ =>
    decl.listedTypes ≠ [] → ∀ id ∈ decl.sourceSetIds.toList,
      ∃ type ∈ decl.listedTypes, id ∈ type.sourceSets.toList
  | .package, declarations =>
    (∀ declaration ∈ declarations, declaration.IsDescribed) ∧
      ∀ variant ∈ maker.listedMembers (drisOf declarations) [] (.ofDeclarations declarations),
        variant.IsBriefed
  | .classlike, group =>
    (∀ id ∈ (sourceSetsOf (listedExtensions group)).toList,
      id ∈ (sourceSetsOf (group ++ shownConstructors group ++
        group.flatMap listedEntries)).toList) ∧
      ∀ variant ∈ maker.listedMembers (drisOf group) (listedExtensions group)
          (.ofDeclarations (group.filter fun type => type.isClasslike || type.isEnumEntry)),
        variant.IsBriefed
  | .member, group => ∀ member ∈ group, member.IsDescribed

/-- The page is one of the module, and the declarations on it have signatures. -/
def Subject.IsSignable (decl : ModuleDecl) : Subject → Prop
  | .module other | .allTypes other => other = decl
  | .package _ => True
  | .classlikes group | .enumEntries group | .members group =>
    ∀ declaration ∈ group, declaration.hasSignature

private theorem hasSignature_of_unrenamed_eq {declaration other : Declaration}
    (shown : declaration.hasSignature) (same : declaration.unrenamed = other.unrenamed) :
    other.hasSignature := by
  rwa [← hasSignature_unrenamed, same, hasSignature_unrenamed] at shown

private theorem hasSignature_of_mem_shownConstructors {group : List Declaration}
    {constructor : Declaration} (member : constructor ∈ shownConstructors group) :
    constructor.hasSignature := by
  obtain ⟨type, -, isConstructor⟩ := exists_of_mem_shownConstructors member
  cases type with
  | classlike decl =>
      obtain ⟨function, -, rfl⟩ := List.mem_map.mp isConstructor
      rfl
  | _ => exact (List.not_mem_nil isConstructor).elim

private theorem hasSignature_of_mem_enumEntries {declaration entry : Declaration}
    (member : entry ∈ declaration.enumEntries) : entry.hasSignature := by
  have kind := isEnumEntry_of_mem_enumEntries member
  cases entry <;> simp_all [isEnumEntry, hasSignature]

/-- What is on the pages below a page has signatures. -/
theorem Arrangement.isSignable_of_places {arrangement : Arrangement} {decl : ModuleDecl}
    {subject placed : Subject} (signable : subject.IsSignable decl)
    (places : arrangement.Places subject placed) : placed.IsSignable decl := by
  cases places with
  | package member => trivial
  | allTypes listed => exact signable
  | @constructor subject constructor member =>
      refine List.forall_mem_singleton.mpr ?_
      cases subject with
      | classlikes group => exact hasSignature_of_mem_shownConstructors member
      | module | allTypes | package | enumEntries | members => exact (List.not_mem_nil member).elim
  | types isGroup =>
      intro declaration member
      obtain ⟨type, isType, same⟩ := arrangement.exists_sibling_of_mem_typeGroups isGroup member
      obtain ⟨holder, -, inHolder⟩ := List.mem_flatMap.mp isType
      exact hasSignature_of_unrenamed_eq (hasSignature_of_mem_types inHolder) same
  | functions isGroup =>
      intro declaration member
      obtain ⟨callable, isOwn, same⟩ := arrangement.exists_sibling_of_mem_groups isGroup member
      obtain ⟨holder, -, inHolder⟩ := List.mem_flatMap.mp (List.mem_filter.mp isOwn).1
      exact hasSignature_of_unrenamed_eq (hasSignature_of_mem_callables (.inl inHolder)).1 same
  | properties isGroup =>
      intro declaration member
      obtain ⟨callable, isOwn, same⟩ := arrangement.exists_sibling_of_mem_groups isGroup member
      obtain ⟨holder, -, inHolder⟩ := List.mem_flatMap.mp (List.mem_filter.mp isOwn).1
      exact hasSignature_of_unrenamed_eq (hasSignature_of_mem_callables (.inr inHolder)).1 same
  | entries isGroup =>
      intro declaration member
      obtain ⟨entry, isEntry, same⟩ := arrangement.exists_sibling_of_mem_groups isGroup member
      obtain ⟨holder, -, inHolder⟩ := List.mem_flatMap.mp isEntry
      exact hasSignature_of_unrenamed_eq (hasSignature_of_mem_enumEntries inHolder) same

private theorem hasSignature_of_mem_all {declarations : List Declaration} {member : Declaration}
    (isMember : member ∈ (Members.ofDeclarations declarations).all) : member.hasSignature := by
  simp only [Members.all, Members.ofDeclarations, List.mem_append, List.mem_flatMap] at isMember
  rcases isMember with (⟨holder, -, isType⟩ | ⟨holder, -, isFunction⟩) | ⟨holder, -, isProperty⟩
  · exact hasSignature_of_mem_types isType
  · exact (hasSignature_of_mem_callables (.inl isFunction)).1
  · exact (hasSignature_of_mem_callables (.inr isProperty)).1

/-! ## Parts of contents -/

namespace PageMaker

variable {invariant : Session → Prop} (maker : PageMaker)

private theorem ensures_contentOutline {body : Fragment Build} {outline : SourceSets → Outline}
    (dris : OrderedSet Dri) (sourceSets : SourceSets) (has : body.HasOutline invariant outline) :
    Ensures invariant (makeContent dris sourceSets body) fun node =>
      Outline.ofNodes [node] = (outline sourceSets).wrap sourceSets :=
  has.makeGroup {} _

private theorem hasOutline_coverGroup (title : String) :
    (Fragment.group { kind := some .cover } (.cover title)).HasOutline invariant Outline.leaf :=
  ((Fragment.hasOutline_cover title).group _).congr fun sourceSets => Outline.wrap_leaf sourceSets

/-- A cover with a description. -/
private theorem hasOutline_cover_underCover (title : String) (overrides : Overrides)
    (made : List Node) :
    (Fragment.group { kind := some .cover }
      (.cover title ++ underCover overrides made)).HasOutline invariant fun sourceSets =>
        .single sourceSets
          ((Outline.ofNodes made).wrap (overrides.innerSourceSets sourceSets)).covered := by
  refine (((Fragment.hasOutline_cover title).append
    (((Fragment.hasOutline_nodes made).platformHinted _).onlyIf _)).group _).congr
      fun sourceSets => ?_
  refine (Outline.wrap_leaf_append _ _).trans (congrArg (Outline.single sourceSets) ?_)
  cases made with
  | nil =>
      refine (eq_true ?_).symm
      rw [Outline.ofNodes_nil, Outline.wrap_empty]
      trivial
  | cons => rfl

/-- A block is covered if what it lists is for all of its source sets. -/
private theorem covered_block {α : Type} {elements : List α} {listed : α → SourceSets}
    {row : α → Outline} (rows : ∀ element ∈ elements, row element = .leaf (listed element))
    (sourceSets : SourceSets) :
    (if elements = [] then Outline.empty
      else .leaf sourceSets ++ (Outline.concat (elements.map row)).wrap sourceSets).covered ↔
      (elements ≠ [] → ∀ id ∈ sourceSets.toList, ∃ element ∈ elements,
        id ∈ (listed element).toList) := by
  rw [List.map_congr_left rows]
  cases elements with
  | nil => simp
  | cons first rest => simp [Outline.wrap, Outline.single, Outline.leaf, Outline.concat]

/-- Signatures have all source sets of the declarations, whatever stands beside them. -/
private theorem hasOutline_hintedSignatures {α : Type} {elements : List α}
    {declared : α → Declaration} {group : List Declaration}
    (declares : elements.map declared = group)
    (signatures : ∀ declaration ∈ group, declaration.hasSignature)
    {beside : α → Fragment Build} {outline : α → Outline}
    (has : ∀ element, (beside element).HasOutline Session.IsSound fun _ => outline element)
    (covered : ∀ element ∈ elements, (outline element).covered) {overrides : Overrides}
    (stated : overrides.sourceSets = some (sourceSetsOf group)) :
    (Fragment.platformHinted overrides (.forEach elements fun element =>
      .signature (declared element) ++ beside element)).HasOutline Session.IsSound
        fun _ => .leaf (sourceSetsOf group) := by
  subst declares
  refine ((Fragment.hasOutline_forEach fun element member =>
    (Fragment.hasOutline_signature (signatures _ (List.mem_map_of_mem member))).append
      (has element)).platformHinted _).congr fun _ => ?_
  rw [Overrides.innerSourceSets, stated, Option.getD_some]
  refine (Outline.wrap_eq_single fun _ id isClaimed => ?_).trans
    (congrArg (Outline.single _) (eq_true ?_))
  · obtain ⟨declaration, member, inDeclaration⟩ := mem_sourceSetsOf.mp isClaimed
    obtain ⟨element, isElement, rfl⟩ := List.mem_map.mp member
    exact ⟨_, List.mem_map_of_mem isElement, .inl inDeclaration⟩
  · rw [Outline.covered_concat_map]
    exact fun element member => ⟨trivial, covered element member⟩

private theorem hasOutline_variantSummaries {group : List Declaration}
    (signatures : ∀ declaration ∈ group, declaration.hasSignature) :
    (variantSummaries group).HasOutline Session.IsSound fun _ => .leaf (sourceSetsOf group) :=
  hasOutline_hintedSignatures (List.map_id' group) signatures Section.hasOutline_brief
    (fun _ _ => trivial) rfl

/-- A block of named groups has rows for all source sets of their declarations. -/
private theorem ensures_namedContent {title : String → Declaration → Fragment Build}
    (titles : ∀ name first, (title name first).HasOutline Session.IsSound Outline.leaf)
    {declarations : List Declaration}
    (signatures : ∀ declaration ∈ declarations, declaration.hasSignature) (heading : String)
    (kind : Kind) {settings : BlockSettings}
    (stated : settings.sourceSets = sourceSetsOf declarations) :
    Ensures Session.IsSound
      (makeContent (drisOf declarations) (sourceSetsOf declarations)
        (.multiBlock heading 2 kind (namedGroups declarations) rowSubject settings
          fun name group => .forSome group.head? fun first =>
            title name first ++ variantSummaries group))
      fun node => Outline.ofNodes [node] = .leaf (sourceSetsOf declarations) := by
  have rows : ∀ group ∈ namedGroups declarations,
      (Fragment.forSome group.2.head? fun first =>
        title group.1 first ++ variantSummaries group.2).HasOutline Session.IsSound
          fun sourceSets => .concat (group.2.head?.toList.map fun _ =>
            .leaf sourceSets ++ .leaf (sourceSetsOf group.2)) :=
    fun group isGroup => Fragment.hasOutline_forSome fun first _ => (titles _ _).append
      (hasOutline_variantSummaries fun declaration inGroup =>
        signatures declaration (exists_mem_namedGroups_iff.mp ⟨group, isGroup, inGroup⟩))
  have row : ∀ group : String × List Declaration,
      (Outline.concat (group.2.head?.toList.map fun _ =>
        .leaf (sourceSetsOf group.2) ++ .leaf (sourceSetsOf group.2))).wrap
          (sourceSetsOf group.2) = .leaf (sourceSetsOf group.2) := by
    intro group
    cases group.2.head? <;> simp
  have table : (Outline.concat ((namedGroups declarations).map fun group =>
      .leaf (sourceSetsOf group.2))).wrap (sourceSetsOf declarations) =
        .leaf (sourceSetsOf declarations) := by
    rw [Outline.wrap_eq_single fun _ id isClaimed => ?_, Outline.leaf]
    · simp
    · obtain ⟨declaration, member, inDeclaration⟩ := mem_sourceSetsOf.mp isClaimed
      obtain ⟨group, isGroup, inGroup⟩ := exists_mem_namedGroups_iff.mpr member
      exact ⟨_, List.mem_map_of_mem isGroup, mem_sourceSetsOf.mpr ⟨_, inGroup, inDeclaration⟩⟩
  refine (ensures_contentOutline _ _ (Fragment.hasOutline_multiBlock heading 2 kind settings
    rows)).weaken fun node isOutline => isOutline.trans ?_
  split
  · exact Outline.wrap_empty _
  · rw [stated]
    refine (congrArg (fun shown => (.leaf (sourceSetsOf declarations) ++
      (Outline.concat shown).wrap (sourceSetsOf declarations) : Outline).wrap
        (sourceSetsOf declarations)) (List.map_congr_left fun group _ => row group)).trans ?_
    rw [table, Outline.leaf_append_leaf, Outline.wrap_leaf]

/-- What is left out of a page without declarations for it, and otherwise has their source sets. -/
private theorem ensures_shownContent {content : List Declaration → Build Content.Node}
    {declarations : List Declaration}
    (ensures : Ensures invariant (content declarations) fun node =>
      Outline.ofNodes [node] = .leaf (sourceSetsOf declarations)) :
    Ensures invariant (contentOf? content declarations) fun made =>
      (Outline.ofNodes made.toList).covered ∧
        ∀ id, (Outline.ofNodes made.toList).carries id ↔
          id ∈ (sourceSetsOf declarations).toList := by
  cases declarations with
  | nil => exact ensures_pure (by simp [Outline.empty, sourceSetsOf])
  | cons first others =>
      refine (ensures.weaken fun node isLeaf => ?_).map
      rw [Option.toList_some, isLeaf]
      exact ⟨trivial, fun _ => .rfl⟩

private theorem ensures_coveredConstructors {constructors : List Declaration}
    (signatures : ∀ constructor ∈ constructors, constructor.hasSignature) :
    Ensures Session.IsSound (constructorsContent constructors) fun node =>
      Outline.ofNodes [node] = .leaf (sourceSetsOf constructors) :=
  ensures_namedContent (fun name first => ((Fragment.hasOutline_text .main name).linkTo
    (.declaration first.dri) _).congr fun _ => Outline.wrap_leaf _) signatures _ _ rfl

private theorem ensures_coveredEntries {entries : List Declaration}
    (signatures : ∀ entry ∈ entries, entry.hasSignature) :
    Ensures Session.IsSound (entriesContent entries) fun node =>
      Outline.ofNodes [node] = .leaf (sourceSetsOf entries) :=
  ensures_namedContent (fun name first => Fragment.hasOutline_link name first.dri .main) signatures
    _ _ rfl

/-- The tabs of a group of types are covered if what lists members is and all source sets of
extensions are those of a type, a constructor or an entry. -/
private theorem covered_tabs {shownConstructors shownEntries : Outline} {listed : Prop}
    {group constructors entries extensions : List Declaration}
    (areConstructors : shownConstructors.covered ∧
      ∀ id, shownConstructors.carries id ↔ id ∈ (sourceSetsOf constructors).toList)
    (areEntries : shownEntries.covered ∧
      ∀ id, shownEntries.carries id ↔ id ∈ (sourceSetsOf entries).toList) :
    ((shownConstructors ++ shownEntries ++ .single (sourceSetsOf group) listed : Outline).wrap
      ((sourceSetsOf group).union (sourceSetsOf extensions))).covered ↔
      (∀ id ∈ (sourceSetsOf extensions).toList,
        id ∈ (sourceSetsOf (group ++ constructors ++ entries)).toList) ∧ listed := by
  have carries (id : SourceSetId) :
      (shownConstructors ++ shownEntries ++ .single (sourceSetsOf group) listed : Outline).carries
        id ↔ id ∈ (sourceSetsOf (group ++ constructors ++ entries)).toList := by
    rw [Outline.carries_append, Outline.carries_append, areConstructors.2, areEntries.2,
      or_comm, ← or_assoc, mem_sourceSetsOf_append, mem_sourceSetsOf_append]
    rfl
  refine and_congr ⟨fun supported id member => ?_, fun supported _ id member => ?_⟩ ?_
  · exact (carries id).mp (supported (.inr trivial) id (OrderedSet.mem_union.mpr (.inr member)))
  · rcases OrderedSet.mem_union.mp member with inGroup | inExtensions
    · exact .inr inGroup
    · exact (carries id).mpr (supported id inExtensions)
  · simp [areConstructors.1, areEntries.1]

/-! ## Contents -/

variable (standard : maker.renderers = [.sinceKotlin])

include standard

private theorem ensures_descriptionOutline (declaration : Declaration) :
    Ensures invariant (maker.description declaration) fun nodes =>
      Outline.ofNodes nodes = declaration.descriptionOutline := by
  rw [description, standard]
  exact Section.hasOutline_descriptions declaration _

private theorem ensures_coveredModule (decl : ModuleDecl) :
    Ensures invariant (maker.moduleContent decl) fun node =>
      node.IsCovered ↔ maker.Supports decl .module (Subject.module decl).declarations := by
  refine (maker.ensures_descriptionOutline standard _).bind fun description same => ?_
  have row (package : PackageDecl) : (packageRow package).HasOutline invariant fun sourceSets =>
      .leaf sourceSets ++ .concat (package.sharedDescription?.toList.map fun _ =>
        .leaf package.common.sourceSets) :=
    (Fragment.hasOutline_link _ _ .main).append
      (Fragment.hasOutline_forSome fun _ _ => Section.hasOutline_briefComment _ _)
  refine (ensures_contentOutline _ _ (((hasOutline_cover_underCover decl.name {} description).append
    (Fragment.hasOutline_block "Packages" 2 .packages _ fun package _ => row package)).append
      (((Fragment.hasOutline_header 2 "Index" .cover).append
        (Fragment.hasOutline_link "All Types" .allTypes .main)).onlyIf _))).weaken
    fun node isOutline => ?_
  rw [← Outline.covered_ofNodes_singleton, isOutline, Outline.append_assoc,
    Outline.wrap_single_append, same]
  have rows : ∀ package ∈ decl.packages,
      (.leaf package.common.sourceSets ++ .concat (package.sharedDescription?.toList.map fun _ =>
        .leaf package.common.sourceSets) : Outline).wrap package.common.sourceSets =
      .leaf package.common.sourceSets := by
    intro package _
    rw [Outline.wrap_leaf_append]
    simp [Outline.concat, Outline.leaf, Outline.single]
  have index : (if maker.listsAllTypes decl then
      Outline.leaf decl.sourceSetIds ++ .leaf decl.sourceSetIds else .empty).covered := by
    split <;> simp
  exact and_congr ((covered_wrap_descriptionOutline _).trans List.forall_mem_singleton.symm)
    ((and_iff_left index).trans (covered_block rows decl.sourceSetIds))

/-- The briefs of a type are covered, whatever source sets they are for. -/
private theorem hasOutline_bestBrief (type : Declaration) :
    ∃ outline : Outline, outline.covered ∧
      (maker.bestBrief type).HasOutline invariant fun _ => outline := by
  have briefs : ∀ renderer ∈ maker.renderers, ∀ id name root,
      (renderer.brief id name root).HasOutline invariant fun _ => .ofIds [id] := by
    rw [standard]
    exact List.forall_mem_singleton.mpr fun id name root =>
      Section.hasOutline_note rfl (Fragment.hasOutline_text .comment _) root
  have described (best : Option (SourceSetId × Markup)) :
      (Fragment.forSome best fun shown =>
        Section.briefComment (.singleton shown.1) shown.2).HasOutline invariant fun _ =>
          .concat (best.toList.map fun shown => .leaf (.singleton shown.1)) :=
    Fragment.hasOutline_forSome fun shown _ => Section.hasOutline_briefComment _ shown.2
  have tagged (name : String) (best : Option (SourceSetId × Markup)) :
      (Fragment.forSome best fun shown =>
        .forEach (maker.renderers.filter (·.applies name)) fun renderer =>
          renderer.brief shown.1 name shown.2).HasOutline invariant fun _ =>
            .concat (best.toList.map fun shown =>
              .concat ((maker.renderers.filter (·.applies name)).map fun _ => .ofIds [shown.1])) :=
    Fragment.hasOutline_forSome fun shown _ => Fragment.hasOutline_forEach fun renderer member =>
      briefs renderer (List.mem_filter.mp member).1 shown.1 name shown.2
  refine ⟨_, ?_, (described _).append (Fragment.hasOutline_forEach fun name _ => tagged name _)⟩
  simp only [Outline.covered_append, Outline.covered_concat_map, Outline.covered_leaf,
    Outline.covered_ofIds, implies_true, and_self]

private theorem ensures_coveredAllTypes (decl : ModuleDecl) :
    Ensures invariant (maker.allTypesContent decl) fun node =>
      node.IsCovered ↔ maker.Supports decl .allTypes (Subject.allTypes decl).declarations := by
  have bestBriefs (type : Declaration) : ∃ outline : Outline, outline.covered ∧
      (maker.bestBrief type).HasOutline invariant fun _ => outline :=
    maker.hasOutline_bestBrief standard type
  choose briefs covered has using bestBriefs
  refine (ensures_contentOutline _ _ ((hasOutline_coverGroup decl.name).append
    (Fragment.hasOutline_block "All Types" 2 .allTypes _ fun type _ =>
      (Fragment.hasOutline_link _ type.dri .main).append (has type)))).weaken
    fun node isOutline => ?_
  have rows : ∀ type ∈ decl.listedTypes,
      (.leaf type.sourceSets ++ briefs type : Outline).wrap type.sourceSets =
        .leaf type.sourceSets := by
    intro type _
    rw [Outline.wrap_leaf_append, eq_true (covered type), Outline.leaf]
  rw [← Outline.covered_ofNodes_singleton, isOutline, Outline.wrap_leaf_append]
  exact covered_block rows decl.sourceSetIds

private theorem ensures_scopeOutline {members : Members} {extensions : List Declaration}
    (signatures : ∀ declaration, declaration ∈ members.all ∨ declaration ∈ extensions →
      declaration.hasSignature) (dris : OrderedSet Dri) (sourceSets : SourceSets) :
    Ensures Session.IsSound (maker.scopeContent dris sourceSets extensions members) fun node =>
      Outline.ofNodes [node] = .single sourceSets
        (∀ variant ∈ maker.listedMembers dris extensions members, variant.IsBriefed) := by
  have listings : ∀ listing ∈ members.listings maker.settings dris extensions,
      (listing.fragment maker.renderers).HasOutline Session.IsSound fun sourceSets =>
        if listing.declarations = [] then .empty
        else .single sourceSets
          (∀ variant ∈ listedVariants listing.declarations, variant.IsBriefed) := by
    rw [standard]
    exact fun listing isListing => Listing.hasOutline_fragment fun declaration listed =>
      signatures declaration (Members.mem_of_mem_listings isListing listed)
  refine (ensures_contentOutline dris sourceSets (Fragment.hasOutline_forEach listings)).weaken
    fun node isOutline => isOutline.trans ?_
  rw [Outline.wrap_eq_single, Outline.covered_concat_map, listedMembers]
  · refine congrArg (Outline.single sourceSets) (propext ?_)
    rw [List.forall_mem_flatMap]
    refine forall₂_congr fun listing _ => ?_
    split
    · rename_i isEmpty
      rw [isEmpty]
      exact iff_of_true trivial fun _ isListed => (List.not_mem_nil isListed).elim
    · rfl
  · rintro ⟨outline, isListed, shown⟩ id member
    refine ⟨outline, isListed, ?_⟩
    obtain ⟨listing, -, rfl⟩ := List.mem_map.mp isListed
    split at shown
    · exact shown.elim
    · rwa [if_neg ‹_›]

private theorem ensures_coveredPackage {decl : ModuleDecl} (package : PackageDecl) :
    Ensures Session.IsSound (maker.packageContent package) fun node =>
      node.IsCovered ↔ maker.Supports decl .package (Subject.package package).declarations := by
  have signatures : ∀ declaration,
      declaration ∈ (Members.ofDeclarations [.package package]).all ∨ declaration ∈ [] →
        declaration.hasSignature :=
    fun _ member => hasSignature_of_mem_all (member.resolve_right List.not_mem_nil)
  refine (maker.ensures_scopeOutline standard signatures _ _).bind fun scope isScope => ?_
  refine (maker.ensures_descriptionOutline standard _).bind fun description same => ?_
  refine (ensures_contentOutline _ _ ((hasOutline_cover_underCover _ _ description).append
    ((Fragment.hasOutline_nodes [scope]).group _))).weaken fun node isOutline => ?_
  rw [← Outline.covered_ofNodes_singleton, isOutline, Outline.wrap_single_append, same, isScope]
  exact and_congr ((covered_wrap_descriptionOutline _).trans List.forall_mem_singleton.symm)
    (Iff.of_eq (congrArg Outline.covered (Outline.wrap_single _ _)))

/-- Descriptions are made one by one. -/
private theorem ensures_describedOutlines (declarations : List Declaration) :
    Ensures invariant
      (declarations.mapM fun declaration => return (declaration, ← maker.description declaration))
      fun described => described.map Prod.fst = declarations ∧
        ∀ shown ∈ described, Outline.ofNodes shown.2 = shown.1.descriptionOutline := by
  have each : ∀ declaration ∈ declarations, Ensures invariant
      (do return (declaration, ← maker.description declaration) : Build (Declaration × List Node))
      fun shown => shown.1 = declaration ∧
        Outline.ofNodes shown.2 = shown.1.descriptionOutline := fun declaration _ =>
    (maker.ensures_descriptionOutline standard declaration).bind
      fun _ same => ensures_pure ⟨rfl, same⟩
  refine (ensures_mapM each).weaken fun described related => ⟨?_, fun shown member => ?_⟩
  · rw [← List.forall₂_eq_eq_eq, List.forall₂_map_left_iff]
    exact related.flip.imp fun _ _ holds => holds.1
  · obtain ⟨declaration, -, -, same⟩ := exists_related_of_mem related.flip member
    exact same

private theorem ensures_coveredMembers {decl : ModuleDecl} {group : List Declaration}
    (signatures : ∀ member ∈ group, member.hasSignature) :
    Ensures Session.IsSound (maker.membersContent group) fun node =>
      node.IsCovered ↔ maker.Supports decl .member group := by
  refine (maker.ensures_describedOutlines standard group).bind fun described holds => ?_
  obtain ⟨rfl, same⟩ := holds
  have variants : List.Forall₂ (Variant.HasOutline Session.IsSound)
      (described.map fun shown =>
        { dris := .singleton shown.1.dri, sourceSets := shown.1.sourceSets, extras := .empty
          divergent := some ({}, .signature shown.1), after := some ({}, .nodes shown.2) })
      (described.map fun shown => .single shown.1.sourceSets shown.1.IsDescribed) := by
    refine forall₂_map_map fun shown member => ?_
    have covered : ((Outline.ofIds shown.1.sourceSets.toList).wrap shown.1.sourceSets).covered ∧
        ((Outline.ofNodes shown.2).wrap shown.1.sourceSets).covered ↔ shown.1.IsDescribed := by
      rw [Outline.wrap_ofIds fun _ => id, same shown member, Outline.covered_leaf, true_and]
      exact covered_wrap_descriptionOutline shown.1
    rw [← propext covered]
    exact Fragment.hasOutline_variant rfl rfl
      (Fragment.hasOutline_signature (signatures _ (List.mem_map_of_mem member)))
      (Fragment.hasOutline_nodes shown.2)
  refine (ensures_contentOutline _ _ ((hasOutline_coverGroup _).append
    (Fragment.hasOutline_divergentGroup "member" {} true variants))).weaken fun node isOutline => ?_
  rw [← Outline.covered_ofNodes_singleton, isOutline, Outline.wrap_leaf_append]
  simp [Supports]

private theorem ensures_coveredTypes {decl : ModuleDecl} {group extensions : List Declaration}
    (checked : checkedExtensions group = .ok extensions)
    (signatures : ∀ type ∈ group, type.hasSignature) :
    Ensures Session.IsSound (maker.typesContent extensions group) fun node =>
      node.IsCovered ↔ maker.Supports decl .classlike group := by
  have scopeSignatures : ∀ declaration, declaration ∈ (Members.ofDeclarations
      (group.filter fun type => type.isClasslike || type.isEnumEntry)).all ∨
        declaration ∈ extensions → declaration.hasSignature := by
    rintro declaration (isMember | isExtension)
    · exact hasSignature_of_mem_all isMember
    · exact hasSignature_of_isCallable
        (isProperty_or_isFunction_of_checkedExtensions checked isExtension)
  have entrySignatures : ∀ entry ∈ group.flatMap listedEntries, entry.hasSignature := by
    intro entry member
    obtain ⟨type, -, isEntry⟩ := List.mem_flatMap.mp member
    exact hasSignature_of_mem_enumEntries (mem_enumEntries_of_mem_listedEntries isEntry)
  refine (maker.ensures_scopeOutline standard scopeSignatures _ _).bind fun scope isScope => ?_
  refine (ensures_shownContent (ensures_coveredConstructors fun _ =>
    hasSignature_of_mem_shownConstructors)).bind fun constructors areConstructors => ?_
  refine (ensures_shownContent (ensures_coveredEntries entrySignatures)).bind
    fun entries areEntries => ?_
  refine (maker.ensures_describedOutlines standard group).bind fun described holds => ?_
  have covered : ∀ shown ∈ described, (Outline.ofNodes shown.2).covered := fun shown member =>
    holds.2 shown member ▸ covered_descriptionOutline shown.1
  refine (ensures_contentOutline _ _ ((((Fragment.hasOutline_cover _).append
    (hasOutline_hintedSignatures holds.1 signatures
      (fun shown => Fragment.hasOutline_nodes shown.2) covered rfl)).group _).append
        ((Fragment.hasOutline_nodes _).group _))).weaken fun node isOutline => ?_
  rw [← Outline.covered_ofNodes_singleton, isOutline, Outline.ofNodes_append,
    Outline.ofNodes_append, isScope, Supports, ← eq_listedExtensions_of_checked checked,
    ← covered_tabs areConstructors areEntries]
  refine (Iff.of_eq (congrArg Outline.covered (Outline.wrap_eq_single fun _ id member => ?_))).trans
    ((and_iff_right ?_))
  · exact .inl (OrderedSet.mem_union.mpr (.inl member))
  · exact (congrArg Outline.covered (Outline.wrap_leaf_append _ _)).mpr trivial

/-- The content of a page of a module is covered exactly if it supports what it claims. -/
private theorem ensures_isCovered {decl : ModuleDecl} {subject : Subject}
    (signable : subject.IsSignable decl) :
    EnsuresUnlessFailed Session.IsSound (maker.content subject) fun node =>
      node.IsCovered ↔ maker.Supports decl subject.kind subject.declarations := by
  cases subject with
  | module other =>
      obtain rfl := signable
      exact (maker.ensures_coveredModule standard other).lift
  | allTypes other =>
      obtain rfl := signable
      exact (maker.ensures_coveredAllTypes standard other).lift
  | package package => exact (maker.ensures_coveredPackage standard package).lift
  | members group => exact (maker.ensures_coveredMembers standard signable).lift
  | classlikes group | enumEntries group =>
      refine (ensuresUnlessFailed_check fun _ checked => checked).bind fun extensions checked => ?_
      exact (maker.ensures_coveredTypes standard checked signable).lift

/-- The content of every page of a module is covered exactly if it supports what it claims. -/
private theorem ensures_allCovered (decl : ModuleDecl) :
    EnsuresUnlessFailed Session.IsSound (maker.build (.module decl)) fun page =>
      ∀ reached ∈ page.all,
        reached.content.IsCovered ↔ maker.Supports decl reached.kind reached.declarations :=
  maker.ensures_all_of_build
    (fun _ signable _ isBelow =>
      Arrangement.isSignable_of_places signable (maker.places_of_mem_below isBelow))
    (fun _ signable => maker.ensures_isCovered standard signable)
    (fun _ _ _ _ covered => covered) (Subject.hasDri_module decl) rfl

end PageMaker

/-! ## Modules -/

namespace ModuleDecl

/-- A page of a module has no gap of coverage exactly if it supports the source sets that it
claims. -/
theorem coverageGaps_of_generate {settings : Settings} {decl : ModuleDecl} {generated : Generated}
    (success : decl.generate settings = .ok generated) :
    ∀ page ∈ generated.root.all, page.content.coverageGaps = [] ↔
      (decl.pageMaker settings []).Supports decl page.kind page.declarations := by
  obtain ⟨page, session, run, root, -⟩ := exists_build_of_generate success
  have built := ((decl.pageMaker settings []).ensures_allCovered rfl decl {}
    Session.isSound_empty).1
  intro reached member
  obtain ⟨placed, inTree, rfl⟩ := List.mem_map.mp (root ▸ member)
  obtain ⟨original, inPage, sameKind, sameDeclarations, finished⟩ :=
    Pass.exists_of_mem_walk_applyAll inTree
  have covered := built page (congrArg Prod.fst run) original (List.mem_map_of_mem inPage)
  rw [sameKind, sameDeclarations, finished, Pass.coverageGaps_finish, ← covered]
  exact Content.Node.coverageGaps_eq_nil_iff

/-- Of every page of the module it is known whether it has gaps of coverage. -/
theorem coverageGaps_of_generate_shapes :
    ∃ generated, shapes.generate {} = .ok generated ∧
      ∀ page ∈ generated.root.all, page.content.coverageGaps = [] ↔
        (shapes.pageMaker {} []).Supports shapes page.kind page.declarations := by
  obtain ⟨generated, success⟩ := exists_generated_shapes {}
  exact ⟨generated, success, coverageGaps_of_generate success⟩

/-- A module for three source sets with a package for two of them, which has a function that is
documented for one of these. -/
def halves : ModuleDecl :=
  let jvm : SourceSetId := ⟨"halves", "jvm"⟩
  let js : SourceSetId := ⟨"halves", "js"⟩
  let native : SourceSetId := ⟨"halves", "native"⟩
  let named := fun (name : String) (dri : Dri) =>
    ({ dri, name := some name, sourceSets := .ofList [jvm, js] } : Common)
  let function : FunctionDecl :=
    { common :=
        { named "open" { packageName := "shared", callable := some { name := "open" } } with
          documentation := .uniform [jvm] (.describing "Opens it.") } }
  { name := "halves"
    packages := [{ common := named "shared" (.ofPackage "shared"), functions := [function] }]
    sourceSets := [⟨jvm, "jvm", .jvm⟩, ⟨js, "js", .js⟩, ⟨native, "native", .native⟩] }

/-- On every page of the module a node claims a source set that none of its children carries: the
table of packages, the row of the function, and its description. -/
theorem exists_coverageGaps_ne_nil :
    ∃ generated, halves.generate {} = .ok generated ∧
      generated.root.all.map Page.name = ["halves", "shared", "open"] ∧
        ∀ page ∈ generated.root.all, page.content.coverageGaps ≠ [] := by
  have outcome : (halves.generate {}).toOption.map (fun generated =>
      decide (generated.root.all.map Page.name = ["halves", "shared", "open"] ∧
        ∀ page ∈ generated.root.all, page.content.coverageGaps ≠ [])) = some true := by
    decide +kernel
  obtain ⟨generated, made, gaps⟩ := Option.map_eq_some_iff.mp outcome
  exact ⟨generated, eq_ok_of_toOption made, of_decide_eq_true gaps⟩

end ModuleDecl

end DocPages
