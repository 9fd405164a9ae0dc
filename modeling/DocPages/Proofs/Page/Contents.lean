import DocPages.Page.Contents
import DocPages.Proofs.Collection.Grouping
import DocPages.Proofs.Page.Sections

/-!
# What page contents show

The declarations that the contents of pages link to, given what signatures link to. A module links
to its packages, and every other page links to the variants that its listings show and to the
constructors and entries that it lists.
-/

namespace DocPages

open Content

namespace Declaration

/-- The variants that a section of declarations shows. -/
def listedVariants (declarations : List Declaration) : List Declaration :=
  (rows declarations).flatMap Prod.snd

end Declaration

open Declaration Build Fragment

section

variable {invariant : Session → Prop} {signed : Declaration → List Dri}
  (signatures : ∀ declaration,
    (Fragment.signature declaration).Shows invariant (signed declaration))

/-! ## Listings -/

namespace Listing

variable {renderers : List TagRenderer}
  (renders : ∀ renderer ∈ renderers, renderer.Keeps invariant)

include signatures renders

private theorem shows_variantOf (kind : Kind) (declaration : Declaration) :
    (variant renderers kind declaration).Shows invariant (signed declaration) :=
  shows_variant _ _ ((signatures declaration).group {})
    ((Section.keeps_brief declaration).append (Section.keeps_customTagBriefs renders declaration))

private theorem shows_row (listing : Listing) (key : RowKey) (first : Declaration)
    (variants : List Declaration) :
    (listing.row renderers key first variants).2.Shows invariant (variants.flatMap signed) := by
  have title overrides : (Fragment.linkTo (.declaration first.dri) overrides
      (.text (listing.rowKind key) (key.name.getD ""))).Shows invariant [first.dri] :=
    (keeps_text _ _).linkTo first.dri overrides
  refine ((title _).append (shows_divergentGroup _ _ true (fun made member => ?_)
    fun dri isTarget => ?_)).weaken (List.subset_append_right _ _)
  · obtain ⟨declaration, -, rfl⟩ := List.mem_map.mp member
    intro scope
    exact (shows_variantOf signatures renders _ declaration scope).weaken
      fun _ _ => List.nil_subset _
  · obtain ⟨declaration, member, isSigned⟩ := List.mem_flatMap.mp isTarget
    refine ⟨_, List.mem_map_of_mem member, fun scope => ?_⟩
    exact (shows_variantOf signatures renders _ declaration scope).weaken
      fun _ linked => List.Subset.trans (by simpa using isSigned) linked

omit signatures renders in
private theorem eq_row_of_mem_rows {listing : Listing} {shown : Row Build}
    (member : shown ∈ listing.rows renderers) :
    ∃ key first variants, shown = listing.row renderers key first variants := by
  obtain ⟨⟨key, variants⟩, -, made⟩ := List.mem_filterMap.mp member
  obtain ⟨first, -, rfl⟩ := Option.map_eq_some_iff.mp made
  exact ⟨key, first, variants, rfl⟩

omit signatures renders in
private theorem mem_rows_of_mem_variants {listing : Listing} {key : RowKey}
    {variants : List Declaration} (isRow : (key, variants) ∈ Declaration.rows listing.declarations)
    {declaration : Declaration} (member : declaration ∈ variants) :
    ∃ first, listing.row renderers key first variants ∈ listing.rows renderers := by
  obtain ⟨first, others, rfl⟩ := List.exists_cons_of_ne_nil (List.ne_nil_of_mem member)
  exact ⟨first, List.mem_filterMap.mpr ⟨_, isRow, rfl⟩⟩

private theorem shows_table_rows (listing : Listing) {titles : List (Fragment Build)}
    (titlesKeep : ∀ title ∈ titles, Fragment.Keeps invariant title) (overrides : Overrides) :
    (table overrides titles none (listing.rows renderers)).Shows invariant
      ((listedVariants listing.declarations).flatMap signed) := by
  refine shows_table overrides titlesKeep (fun shown member => ?_) fun dri isTarget => ?_
  · obtain ⟨key, first, variants, rfl⟩ := eq_row_of_mem_rows member
    exact (shows_row signatures renders listing key first variants).keeps
  · obtain ⟨declaration, isListed, isSigned⟩ := List.mem_flatMap.mp isTarget
    obtain ⟨⟨key, variants⟩, isRow, inRow⟩ := List.mem_flatMap.mp isListed
    obtain ⟨first, isShown⟩ := mem_rows_of_mem_variants isRow inRow
    refine ⟨_, isShown, (shows_row signatures renders listing key first variants).weaken ?_⟩
    simpa using ⟨declaration, inRow, isSigned⟩

/-- A listing shows what the signatures of its variants show. -/
theorem shows_fragment (listing : Listing) :
    (listing.fragment renderers).Shows invariant
      ((listedVariants listing.declarations).flatMap signed) := by
  have titlesKeep : ∀ title ∈ [Fragment.group {} (.text .main "Name") ++
      Fragment.group {} (.text .main "Summary")], Fragment.Keeps invariant title := by
    intro title member
    obtain rfl := List.mem_singleton.mp member
    exact ((keeps_text .main "Name").group {}).append ((keeps_text .main "Summary").group {})
  rw [fragment]
  cases empty : listing.declarations.isEmpty with
  | true =>
      have nothing : listedVariants listing.declarations = [] := by
        rw [List.isEmpty_iff.mp empty]
        rfl
      rw [nothing]
      exact keeps_empty
  | false =>
      exact ((keeps_empty.headerWith 2 listing.title _).append
        (shows_table_rows signatures renders listing titlesKeep _)).group _

end Listing

/-! ## Contents of pages -/

namespace PageMaker

variable (maker : PageMaker)

/-- The declarations that the listings of a scope show. -/
def listedMembers (dris : OrderedSet Dri) (extensions : List Declaration) (members : Members) :
    List Declaration :=
  (members.listings maker.settings dris extensions).flatMap fun listing =>
    listedVariants listing.declarations

/-- What the content of a page links to, given what signatures link to. -/
def Displays (signed : Declaration → List Dri) : Subject → Content.Node → Prop
  | .module decl, node =>
    (decl.packages.map fun package => package.common.dri) ++
      (if maker.listsAllTypes decl then [.allTypes] else []) ⊆ node.links
  | .package decl, node =>
    (maker.listedMembers (.singleton decl.common.dri) [] (.ofDeclarations [.package decl])).flatMap
      signed ⊆ node.links
  | .classlikes group, node | .enumEntries group, node =>
    let members := .ofDeclarations (group.filter fun type => type.isClasslike || type.isEnumEntry)
    ∃ extensions : List Declaration,
      (∀ extension ∈ extensions, extension.isProperty ∨ extension.isFunction) ∧
        (shownConstructors group ++ group.flatMap listedEntries ++
          maker.listedMembers (drisOf group) extensions members).flatMap signed ⊆ node.links
  | .allTypes _, _ | .members _, _ => True

variable (renders : ∀ renderer ∈ maker.renderers, renderer.Keeps invariant)

private theorem ensures_makeContent {body : Fragment Build} {targets : List Dri}
    (dris : OrderedSet Dri) (sourceSets : SourceSets) (shows : body.Shows invariant targets) :
    Ensures invariant (makeContent dris sourceSets body) fun node => targets ⊆ node.links :=
  ensures_makeGroup _ _ shows

private theorem keeps_underCover (overrides : Overrides) (made : List Node) :
    (underCover overrides made).Keeps invariant :=
  ((shows_nodes made).platformHinted _).keeps_onlyIf

private theorem shows_packageRow (decl : PackageDecl) :
    (packageRow decl).Shows invariant [decl.common.dri] :=
  (shows_link _ _ .main).append (keeps_forSome fun _ => Section.keeps_briefComment _ _)

include renders

private theorem ensures_description (declaration : Declaration) :
    Ensures invariant (maker.description declaration) fun _ => True :=
  (Section.keeps_descriptions renders declaration _).weaken fun _ _ => trivial

/-- The content of a module links to its packages and to the page of all types. -/
private theorem ensures_moduleContent (decl : ModuleDecl) :
    Ensures invariant (maker.moduleContent decl) (maker.Displays signed (.module decl)) := by
  refine (maker.ensures_description renders _).bind fun description _ => ?_
  refine ensures_makeContent _ _ ?_
  refine Shows.append (((keeps_cover _).append (keeps_underCover _ _)).group _ |>.append ?_) ?_
  · refine shows_block _ _ _ _ _ (fun package _ => (shows_packageRow package).keeps) ?_
    intro dri isTarget
    obtain ⟨package, member, rfl⟩ := List.mem_map.mp isTarget
    exact ⟨package, member, shows_packageRow package⟩
  · exact ((keeps_header 2 "Index" .cover).append (shows_link _ _ .main)).onlyIf

private theorem keeps_bestBrief (type : Declaration) :
    (maker.bestBrief type).Keeps invariant := by
  refine (keeps_forSome fun _ => Section.keeps_briefComment _ _).append ?_
  refine keeps_forEach fun name _ => keeps_forSome fun _ => ?_
  refine keeps_forEach fun renderer member => ?_
  exact (renders renderer (List.mem_filter.mp member).1).brief _ _ _

private theorem ensures_allTypesContent (decl : ModuleDecl) :
    Ensures invariant (maker.allTypesContent decl) fun _ => True := by
  have rowKeeps : ∀ type : Declaration,
      (Fragment.link (type.qualifiedName?.getD "") type.dri .main ++
        maker.bestBrief type).Keeps invariant := fun type =>
    ((shows_link _ type.dri .main).append (maker.keeps_bestBrief renders type)).keeps
  exact (ensures_makeContent _ _ (((keeps_cover _).group _).append
    (keeps_block _ _ _ _ _ fun type _ => rowKeeps type))).weaken fun _ _ => trivial

include signatures

/-- The listings of a scope link to what the signatures of the listed members link to. -/
private theorem ensures_scopeContent (dris : OrderedSet Dri) (sourceSets : SourceSets)
    (extensions : List Declaration) (members : Members) :
    Ensures invariant (maker.scopeContent dris sourceSets extensions members) fun node =>
      (maker.listedMembers dris extensions members).flatMap signed ⊆ node.links := by
  rw [listedMembers, List.flatMap_assoc]
  exact ensures_makeContent dris sourceSets
    (shows_forEach fun listing _ => Listing.shows_fragment signatures renders listing)

private theorem ensures_packageContent (decl : PackageDecl) :
    Ensures invariant (maker.packageContent decl) (maker.Displays signed (.package decl)) := by
  refine (maker.ensures_scopeContent signatures renders _ _ _ _).bind fun scope linked => ?_
  refine (maker.ensures_description renders _).bind fun description _ => ?_
  refine (ensures_makeContent _ _ ((((keeps_cover _).append (keeps_underCover _ _)).group _).append
    ((shows_nodes [scope]).group _))).weaken fun node links => ?_
  exact List.Subset.trans linked (by simpa using links)

omit renders in
private theorem shows_variantSummaries (group : List Declaration) :
    (variantSummaries group).Shows invariant (group.flatMap signed) := by
  refine (shows_forEach fun declaration _ => ?_).platformHinted _
  exact ((signatures declaration).append (Section.keeps_brief declaration)).weaken (by simp)

omit renders signatures in
/-- Named groups hold the declarations that they are made of. -/
theorem exists_mem_namedGroups_iff {declarations : List Declaration} {declaration : Declaration} :
    (∃ group ∈ namedGroups declarations, declaration ∈ group.2) ↔ declaration ∈ declarations := by
  rw [← (flatten_groupByFirstSeen_perm name? declarations).mem_iff, List.mem_flatten]
  simp [namedGroups]

omit renders in
private theorem shows_groupRow {title : Declaration → Fragment Build}
    (titleKeeps : ∀ first, (title first).Keeps invariant) (group : List Declaration) :
    (Fragment.forSome group.head? fun first => title first ++ variantSummaries group).Shows
      invariant (group.flatMap signed) := by
  have shown := fun first =>
    (titleKeeps first).append (shows_variantSummaries signatures group)
  cases group with
  | nil => exact keeps_empty
  | cons first others => exact shown first

omit renders in
/-- A block of named groups of declarations links to what their signatures link to. -/
private theorem shows_namedBlock {title : String → Declaration → Fragment Build}
    (titleKeeps : ∀ name first, (title name first).Keeps invariant) (heading : String) (kind : Kind)
    (settings : BlockSettings) (declarations : List Declaration) :
    (Fragment.multiBlock heading 2 kind (namedGroups declarations) rowSubject settings
      fun name group => .forSome group.head? fun first =>
        title name first ++ variantSummaries group).Shows
      invariant (declarations.flatMap signed) := by
  refine shows_multiBlock _ _ _ _ _
    (fun group _ => (shows_groupRow signatures (titleKeeps group.1) group.2).keeps)
    fun dri isTarget => ?_
  obtain ⟨declaration, member, isSigned⟩ := List.mem_flatMap.mp isTarget
  obtain ⟨group, isGroup, inGroup⟩ := exists_mem_namedGroups_iff.mpr member
  refine ⟨group, isGroup, (shows_groupRow signatures (titleKeeps group.1) group.2).weaken ?_⟩
  simpa using ⟨declaration, inGroup, isSigned⟩

omit renders in
private theorem ensures_constructorsContent (constructors : List Declaration) :
    Ensures invariant (constructorsContent constructors) fun node =>
      constructors.flatMap signed ⊆ node.links :=
  ensures_makeContent _ _ (shows_namedBlock signatures
    (fun name first => ((keeps_text .main name).linkTo first.dri _).keeps) _ _ _ constructors)

omit renders in
private theorem ensures_entriesContent (entries : List Declaration) :
    Ensures invariant (entriesContent entries) fun node =>
      entries.flatMap signed ⊆ node.links :=
  ensures_makeContent _ _ (shows_namedBlock signatures
    (fun name first => (shows_link name first.dri .main).keeps) _ _ _ entries)

omit renders signatures in
private theorem ensures_contentOf? {content : List Declaration → Build Content.Node}
    (ensures : ∀ declarations, Ensures invariant (content declarations) fun node =>
      declarations.flatMap signed ⊆ node.links)
    (declarations : List Declaration) :
    Ensures invariant (contentOf? content declarations) fun made =>
      declarations.flatMap signed ⊆ Node.linksOf made.toList := by
  cases declarations with
  | nil => exact ensures_pure (List.nil_subset _)
  | cons first others =>
      exact ((ensures (first :: others)).weaken fun node linked => by simpa using linked).map

omit signatures in
/-- The descriptions of declarations are made one by one. -/
private theorem ensures_described (declarations : List Declaration) :
    Ensures invariant
      (declarations.mapM fun declaration => return (declaration, ← maker.description declaration))
      fun _ => True := by
  have each : ∀ declaration ∈ declarations, Ensures invariant
      (do return (declaration, ← maker.description declaration) : Build (Declaration × List Node))
      fun _ => True := fun declaration _ =>
    (maker.ensures_description renders declaration).bind fun _ _ => ensures_pure trivial
  exact (ensures_mapM each).weaken fun _ _ => trivial

/-- The content of a group of types links to its constructors, its entries and its members. -/
private theorem ensures_typesContent (extensions group : List Declaration) :
    Ensures invariant (maker.typesContent extensions group) fun node =>
      (shownConstructors group ++ group.flatMap listedEntries ++
        maker.listedMembers (drisOf group) extensions
          (.ofDeclarations (group.filter fun type => type.isClasslike || type.isEnumEntry))).flatMap
        signed ⊆ node.links := by
  refine (maker.ensures_scopeContent signatures renders _ _ _ _).bind fun scope scopeLinks => ?_
  refine (ensures_contentOf? (ensures_constructorsContent signatures) _).bind
    fun constructors constructorLinks => ?_
  refine (ensures_contentOf? (ensures_entriesContent signatures) _).bind
    fun entries entryLinks => ?_
  refine (maker.ensures_described renders group).bind fun described _ => ?_
  have signaturesKeep : (Fragment.forEach described fun shown =>
      .signature shown.1 ++ .nodes shown.2).Keeps invariant :=
    keeps_forEach fun shown _ => ((signatures shown.1).append (shows_nodes shown.2)).keeps
  refine (ensures_makeContent _ _ ((((keeps_cover _).append
    (signaturesKeep.platformHinted _)).group _).append ((shows_nodes _).group _))).weaken
      fun node links => ?_
  simp only [List.flatMap_append, Node.linksOf_append, Node.linksOf_cons, Node.linksOf_nil,
    List.append_subset, List.append_nil] at links ⊢
  obtain ⟨-, ⟨inConstructors, inEntries⟩, inScope⟩ := links
  exact ⟨⟨List.Subset.trans constructorLinks inConstructors,
    List.Subset.trans entryLinks inEntries⟩, List.Subset.trans scopeLinks inScope⟩

private theorem ensures_membersContent (group : List Declaration) :
    Ensures invariant (maker.membersContent group) fun _ => True := by
  refine (maker.ensures_described renders group).bind fun described _ => ?_
  have variants : ∀ variant ∈ described.map fun shown =>
      ({ dris := .singleton shown.1.dri, sourceSets := shown.1.sourceSets, extras := .empty
         divergent := some ({}, .signature shown.1)
         after := some ({}, .nodes shown.2) } : Variant Build), variant.Shows invariant [] := by
    intro variant member
    obtain ⟨shown, -, rfl⟩ := List.mem_map.mp member
    exact shows_variant _ _ (signatures shown.1).keeps (shows_nodes shown.2).keeps
  exact (ensures_makeContent _ _ (((keeps_cover _).group _).append
    (shows_divergentGroup _ _ true variants
      fun _ member => (List.not_mem_nil member).elim))).weaken fun _ _ => trivial

omit renders signatures in
/-- Extensions that pass the check are functions and properties. -/
theorem isProperty_or_isFunction_of_checkedExtensions {group extensions : List Declaration}
    (checked : checkedExtensions group = .ok extensions) {extension : Declaration}
    (member : extension ∈ extensions) : extension.isProperty ∨ extension.isFunction := by
  rw [checkedExtensions] at checked
  split at checked
  · cases checked
  · split at checked
    · cases checked
    · rename_i noFailure
      obtain rfl := Except.ok.inj checked
      have accepted := List.find?_eq_none.mp (Option.map_eq_none_iff.mp noFailure) extension member
      cases property : extension.isProperty <;> simp_all

/-- The content of a page links to what it lists, if signatures link to what they are for, and it
keeps every invariant that signatures and renderers keep. -/
theorem ensures_content (subject : Subject) :
    EnsuresUnlessFailed invariant (maker.content subject) (maker.Displays signed subject) := by
  cases subject with
  | module decl => exact (maker.ensures_moduleContent renders decl).lift
  | allTypes decl => exact (maker.ensures_allTypesContent renders decl).lift
  | package decl => exact (maker.ensures_packageContent signatures renders decl).lift
  | members group => exact (maker.ensures_membersContent signatures renders group).lift
  | classlikes group | enumEntries group =>
      refine (ensuresUnlessFailed_check fun _ checked => checked).bind fun extensions checked => ?_
      refine ((maker.ensures_typesContent signatures renders extensions group).weaken ?_).lift
      exact fun node linked =>
        ⟨extensions, fun _ => isProperty_or_isFunction_of_checkedExtensions checked, linked⟩

end PageMaker

end

end DocPages
