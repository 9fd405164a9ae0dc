import DocPages.Proofs.Page.Building
import DocPages.Proofs.Page.Extensions
import DocPages.Proofs.Page.Sections
import DocPages.Proofs.Siblings.RowOrder

/-!
# What contents request

The content of a page requests signatures of the declarations that the page is for and of those that
it lists: members, constructors, entries and extensions. It obeys every rule that these requests and
the renderers obey, and a build obeys every rule that all its contents obey.
-/

namespace DocPages

open Content Declaration Build

/-! ## Listings -/

namespace Members

/-- The declarations that a scope holds, of all kinds. -/
def all (members : Members) : List Declaration :=
  members.types ++ members.functions ++ members.properties

private theorem mem_of_mem_separatedListings {separates : Bool} {title inheritedTitle : String}
    {kind : ListedKind} {scope : OrderedSet Dri} {declarations extensions : List Declaration}
    {listing : Listing}
    (isListing : listing ∈ separatedListings separates title inheritedTitle kind scope declarations
      extensions)
    {declaration : Declaration} (listed : declaration ∈ listing.declarations) :
    declaration ∈ declarations ∨ declaration ∈ extensions := by
  rw [separatedListings] at isListing
  split at isListing
  · rcases List.mem_cons.mp isListing with rfl | isSecond
    · exact (List.mem_append.mp listed).imp List.mem_of_mem_filter List.mem_of_mem_filter
    · obtain rfl := List.mem_singleton.mp isSecond
      exact (List.mem_append.mp listed).imp List.mem_of_mem_filter List.mem_of_mem_filter
  · obtain rfl := List.mem_singleton.mp isListing
    exact List.mem_append.mp listed

/-- The sections of a scope list its members and the extensions. -/
theorem mem_of_mem_listings {settings : Settings} {scope : OrderedSet Dri}
    {extensions : List Declaration} {members : Members} {listing : Listing}
    (isListing : listing ∈ members.listings settings scope extensions) {declaration : Declaration}
    (listed : declaration ∈ listing.declarations) :
    declaration ∈ members.all ∨ declaration ∈ extensions := by
  rw [all, List.mem_append, List.mem_append]
  rcases List.mem_cons.mp isListing with rfl | isOther
  · exact .inl (.inl (.inl listed))
  · rcases List.mem_append.mp isOther with ofProperties | ofFunctions
    · exact (mem_of_mem_separatedListings ofProperties listed).imp .inr List.mem_of_mem_filter
    · exact (mem_of_mem_separatedListings ofFunctions listed).imp (.inl ∘ .inr)
        List.mem_of_mem_filter

end Members

namespace Listing

variable {rule : Rule} (composes : rule.Composes) {renderers : List TagRenderer}
  (renders : ∀ renderer ∈ renderers, renderer.Obeys rule)

include composes renders

private theorem obeys_row (listing : Listing) (key : RowKey) (first : Declaration)
    {variants : List Declaration}
    (signatures : ∀ variant ∈ variants, (Fragment.signature variant).Obeys rule) :
    (listing.row renderers key first variants).2.Obeys rule := by
  refine Fragment.obeys_append composes
    (Fragment.obeys_linkTo composes _ _ (Fragment.obeys_text composes _ _)) ?_
  refine Fragment.obeys_divergentGroup composes _ _ true (List.forall_mem_map.mpr ?_)
  intro variant member
  exact Fragment.obeys_variant _ _ (Fragment.obeys_group composes {} (signatures variant member))
    (Fragment.obeys_append composes (Section.obeys_brief composes variant)
      (Section.obeys_customTagBriefs composes renders variant))

/-- A listing obeys what the signatures of the listed declarations obey. -/
theorem obeys_fragment {listing : Listing}
    (signatures : ∀ declaration ∈ listing.declarations,
      (Fragment.signature declaration).Obeys rule) :
    (listing.fragment renderers).Obeys rule := by
  have title (name : String) : (Fragment.group {} (.text .main name)).Obeys rule :=
    Fragment.obeys_group composes {} (Fragment.obeys_text composes .main name)
  refine Fragment.obeys_onlyIf composes (Fragment.obeys_group composes _
    (Fragment.obeys_append composes
      (Fragment.obeys_headerWith composes 2 listing.title _ (Fragment.obeys_empty composes))
      (Fragment.obeys_table composes _ ?_ (fun _ isCaption => nomatch isCaption) ?_)))
  · exact List.forall_mem_singleton.mpr
      (Fragment.obeys_append composes (title "Name") (title "Summary"))
  · intro shown member
    obtain ⟨⟨key, variants⟩, isRow, made⟩ := List.mem_filterMap.mp member
    obtain ⟨first, -, rfl⟩ := Option.map_eq_some_iff.mp made
    exact obeys_row composes renders listing key first fun variant inRow =>
      signatures variant (mem_of_mem_rows isRow inRow)

end Listing

/-! ## Contents -/

/-- The declarations whose signatures the content of a page can request. -/
def Subject.requested : Subject → List Declaration
  | .module _ | .allTypes _ => []
  | .package decl => (Members.ofDeclarations [.package decl]).all
  | .classlikes group | .enumEntries group =>
    group ++ shownConstructors group ++ group.flatMap listedEntries ++
      (Members.ofDeclarations
        (group.filter fun type => type.isClasslike || type.isEnumEntry)).all ++
      listedExtensions group
  | .members group => group

namespace PageMaker

variable (maker : PageMaker) {rule : Rule} (composes : rule.Composes)
  (renders : ∀ renderer ∈ maker.renderers, renderer.Obeys rule)

include composes

private theorem allows_makeContent {body : Fragment Build} (dris : OrderedSet Dri)
    (sourceSets : SourceSets) (obeys : body.Obeys rule) :
    rule _ (makeContent dris sourceSets body) :=
  Fragment.allows_makeGroup composes obeys _ _

private theorem obeys_underCover (overrides : Overrides) (made : List Node) :
    (underCover overrides made).Obeys rule :=
  Fragment.obeys_onlyIf composes
    (Fragment.obeys_platformHinted composes _ (Fragment.obeys_nodes composes made))

private theorem obeys_coverGroup (overrides : Overrides) (title : String) {body : Fragment Build}
    (obeys : body.Obeys rule) : (Fragment.group overrides (.cover title ++ body)).Obeys rule :=
  Fragment.obeys_group composes _
    (Fragment.obeys_append composes (Fragment.obeys_cover composes title) obeys)

private theorem obeys_variantSummaries {group : List Declaration}
    (signatures : ∀ declaration ∈ group, (Fragment.signature declaration).Obeys rule) :
    (variantSummaries group).Obeys rule :=
  Fragment.obeys_platformHinted composes _ <| Fragment.obeys_forEach composes
    fun declaration member => Fragment.obeys_append composes (signatures declaration member)
      (Section.obeys_brief composes declaration)

omit composes in
private theorem mem_of_mem_namedGroups {declarations : List Declaration}
    {group : String × List Declaration} (isGroup : group ∈ namedGroups declarations)
    {declaration : Declaration} (member : declaration ∈ group.2) : declaration ∈ declarations := by
  obtain ⟨named, isNamed, rfl⟩ := List.mem_map.mp isGroup
  exact (flatten_groupByFirstSeen_perm name? declarations).mem_iff.mp
    (List.mem_flatten.mpr ⟨named, isNamed, member⟩)

/-- A block of named groups of declarations obeys what their signatures obey. -/
private theorem obeys_namedBlock {title : String → Declaration → Fragment Build}
    (titles : ∀ name first, (title name first).Obeys rule) (heading : String) (kind : Kind)
    (settings : BlockSettings) {declarations : List Declaration}
    (signatures : ∀ declaration ∈ declarations, (Fragment.signature declaration).Obeys rule) :
    (Fragment.multiBlock heading 2 kind (namedGroups declarations) rowSubject settings
      fun name group => .forSome group.head? fun first =>
        title name first ++ variantSummaries group).Obeys rule := by
  refine Fragment.obeys_multiBlock composes _ _ _ _ _ fun group isGroup => ?_
  refine Fragment.obeys_forSome composes fun first _ => ?_
  exact Fragment.obeys_append composes (titles group.1 first) <|
    obeys_variantSummaries composes fun declaration member =>
      signatures declaration (mem_of_mem_namedGroups isGroup member)

private theorem allows_constructorsContent {constructors : List Declaration}
    (signatures : ∀ declaration ∈ constructors, (Fragment.signature declaration).Obeys rule) :
    rule _ (constructorsContent constructors) :=
  allows_makeContent composes _ _ <| obeys_namedBlock composes
    (fun name _ => Fragment.obeys_linkTo composes _ _ (Fragment.obeys_text composes .main name))
    _ _ _ signatures

private theorem allows_entriesContent {entries : List Declaration}
    (signatures : ∀ declaration ∈ entries, (Fragment.signature declaration).Obeys rule) :
    rule _ (entriesContent entries) :=
  allows_makeContent composes _ _ <| obeys_namedBlock composes
    (fun name first => Fragment.obeys_link composes name first.dri .main) _ _ _ signatures

private theorem allows_contentOf? {content : List Declaration → Build Content.Node}
    {declarations : List Declaration} (allowed : rule _ (content declarations)) :
    rule _ (contentOf? content declarations) := by
  cases declarations with
  | nil => exact composes.pure none
  | cons first others => exact composes.map allowed some

include renders

private theorem allows_description (declaration : Declaration) :
    rule _ (maker.description declaration) :=
  Section.obeys_descriptions composes renders declaration _

omit composes renders in
/-- Whatever is made for the elements of a list beside them, the elements stay the same. -/
private theorem mapM_beside {α : Type} (step : Declaration → Build α)
    (declarations : List Declaration) :
    (declarations.mapM fun declaration => return (declaration, ← step declaration)) =
      declarations.zip <$> declarations.mapM step := by
  induction declarations with
  | nil => rfl
  | cons head tail ih =>
      rw [List.mapM_cons, List.mapM_cons, ih]
      simp

private theorem allows_descriptions (declarations : List Declaration) :
    rule _ (declarations.mapM maker.description) :=
  composes.mapM fun declaration _ => maker.allows_description composes renders declaration

private theorem allows_moduleContent (decl : ModuleDecl) : rule _ (maker.moduleContent decl) := by
  refine composes.bind (maker.allows_description composes renders _) fun description => ?_
  refine allows_makeContent composes _ _ (Fragment.obeys_append composes
    (Fragment.obeys_append composes ?_ ?_) ?_)
  · exact obeys_coverGroup composes _ _ (obeys_underCover composes _ description)
  · refine Fragment.obeys_block composes _ _ _ _ _ fun package _ => ?_
    exact Fragment.obeys_append composes (Fragment.obeys_link composes _ _ .main)
      (Fragment.obeys_forSome composes fun _ _ => Section.obeys_briefComment composes _ _)
  · exact Fragment.obeys_onlyIf composes (Fragment.obeys_append composes
      (Fragment.obeys_header composes 2 "Index" .cover) (Fragment.obeys_link composes _ _ .main))

private theorem obeys_bestBrief (type : Declaration) : (maker.bestBrief type).Obeys rule := by
  refine Fragment.obeys_append composes
    (Fragment.obeys_forSome composes fun _ _ => Section.obeys_briefComment composes _ _) ?_
  refine Fragment.obeys_forEach composes fun name _ => Fragment.obeys_forSome composes fun _ _ => ?_
  refine Fragment.obeys_forEach composes fun renderer member => ?_
  exact (renders renderer (List.mem_filter.mp member).1).brief _ _ _

private theorem allows_allTypesContent (decl : ModuleDecl) :
    rule _ (maker.allTypesContent decl) := by
  refine allows_makeContent composes _ _ (Fragment.obeys_append composes
    (Fragment.obeys_group composes _ (Fragment.obeys_cover composes _)) ?_)
  refine Fragment.obeys_block composes _ _ _ _ _ fun type _ => ?_
  exact Fragment.obeys_append composes (Fragment.obeys_link composes _ _ .main)
    (maker.obeys_bestBrief composes renders type)

private theorem allows_scopeContent (dris : OrderedSet Dri) (sourceSets : SourceSets)
    {extensions : List Declaration} {members : Members}
    (signatures : ∀ declaration, declaration ∈ members.all ∨ declaration ∈ extensions →
      (Fragment.signature declaration).Obeys rule) :
    rule _ (maker.scopeContent dris sourceSets extensions members) :=
  allows_makeContent composes _ _ <| Fragment.obeys_forEach composes fun _ isListing =>
    Listing.obeys_fragment composes renders fun declaration listed =>
      signatures declaration (Members.mem_of_mem_listings isListing listed)

private theorem allows_packageContent {decl : PackageDecl}
    (signatures : ∀ declaration ∈ (Subject.package decl).requested,
      (Fragment.signature declaration).Obeys rule) : rule _ (maker.packageContent decl) := by
  refine composes.bind (maker.allows_scopeContent composes renders _ _ fun declaration listed => ?_)
    fun scope => ?_
  · exact signatures declaration (listed.resolve_right List.not_mem_nil)
  refine composes.bind (maker.allows_description composes renders _) fun description => ?_
  exact allows_makeContent composes _ _ (Fragment.obeys_append composes
    (obeys_coverGroup composes _ _ (obeys_underCover composes _ description))
    (Fragment.obeys_group composes _ (Fragment.obeys_nodes composes [scope])))

private theorem allows_membersContent {group : List Declaration}
    (signatures : ∀ declaration ∈ group, (Fragment.signature declaration).Obeys rule) :
    rule _ (maker.membersContent group) := by
  rw [membersContent, mapM_beside, bind_map_left]
  refine composes.bind (maker.allows_descriptions composes renders group) fun descriptions => ?_
  refine allows_makeContent composes _ _ (Fragment.obeys_append composes
    (Fragment.obeys_group composes _ (Fragment.obeys_cover composes _)) ?_)
  refine Fragment.obeys_divergentGroup composes _ _ true (List.forall_mem_map.mpr ?_)
  intro shown isShown
  exact Fragment.obeys_variant _ _ (signatures shown.1 (List.of_mem_zip isShown).1)
    (Fragment.obeys_nodes composes shown.2)

private theorem allows_typesContent {extensions group : List Declaration}
    (signatures : ∀ declaration ∈ group ++ shownConstructors group ++ group.flatMap listedEntries ++
        (Members.ofDeclarations
          (group.filter fun type => type.isClasslike || type.isEnumEntry)).all ++ extensions,
      (Fragment.signature declaration).Obeys rule) :
    rule _ (maker.typesContent extensions group) := by
  simp only [List.forall_mem_append] at signatures
  obtain ⟨⟨⟨⟨ofGroup, ofConstructors⟩, ofEntries⟩, ofMembers⟩, ofExtensions⟩ := signatures
  rw [typesContent, mapM_beside]
  refine composes.bind (maker.allows_scopeContent composes renders _ _ fun declaration listed =>
    listed.elim (ofMembers declaration) (ofExtensions declaration)) fun scope => ?_
  refine composes.bind (allows_contentOf? composes
    (allows_constructorsContent composes ofConstructors)) fun constructors => ?_
  refine composes.bind (allows_contentOf? composes (allows_entriesContent composes ofEntries))
    fun entries => ?_
  rw [bind_map_left]
  refine composes.bind (maker.allows_descriptions composes renders group) fun descriptions => ?_
  refine allows_makeContent composes _ _ (Fragment.obeys_append composes ?_ ?_)
  · refine obeys_coverGroup composes _ _ (Fragment.obeys_platformHinted composes _
      (Fragment.obeys_forEach composes fun shown isShown => ?_))
    exact Fragment.obeys_append composes (ofGroup shown.1 (List.of_mem_zip isShown).1)
      (Fragment.obeys_nodes composes shown.2)
  · exact Fragment.obeys_group composes _ (Fragment.obeys_nodes composes _)

/-- The content of a page obeys what the signatures that it requests obey. -/
theorem allows_content {subject : Subject}
    (signatures : ∀ declaration ∈ subject.requested, (Fragment.signature declaration).Obeys rule) :
    rule _ (maker.content subject).run := by
  have ofGroup : ∀ group, (∀ declaration ∈ (Subject.classlikes group).requested,
      (Fragment.signature declaration).Obeys rule) →
        rule _ (maker.content (.classlikes group)).run := by
    intro group signatures
    cases checked : checkedExtensions group with
    | error failure =>
        rw [content, checked]
        exact composes.pure (Except.error failure)
    | ok extensions =>
        rw [Subject.requested, ← eq_listedExtensions_of_checked checked] at signatures
        rw [content, checked]
        exact composes.run_lift (maker.allows_typesContent composes renders signatures)
  cases subject with
  | module decl => exact composes.run_lift (maker.allows_moduleContent composes renders decl)
  | allTypes decl => exact composes.run_lift (maker.allows_allTypesContent composes renders decl)
  | package decl =>
      exact composes.run_lift (maker.allows_packageContent composes renders signatures)
  | classlikes group | enumEntries group => exact ofGroup group signatures
  | members group =>
      exact composes.run_lift (maker.allows_membersContent composes renders signatures)

/-! ## Builds -/

/-- A build obeys what the signatures that its contents request obey. -/
theorem allows_build {eligible : Subject → Prop}
    (below : ∀ subject, eligible subject → ∀ placed ∈ maker.below subject, eligible placed)
    (signatures : ∀ subject, eligible subject → ∀ declaration ∈ subject.requested,
      (Fragment.signature declaration).Obeys rule)
    {subject : Subject} {dri : Dri} (hasDri : subject.HasDri dri) (isEligible : eligible subject) :
    rule _ (maker.build subject).run := by
  induction subject using maker.belowInduction generalizing dri with
  | step subject ih =>
      rw [build_eq, hasDri.problems_eq_nil, List.forM_eq_forM, List.forM_nil, pure_bind]
      refine composes.run_bind (composes.run_mapM fun placed member => ?_) fun pages => ?_
      · obtain ⟨placedDri, placedHasDri⟩ :=
          maker.hasDri_of_places (maker.places_of_mem_below member)
        exact ih placed member placedHasDri (below subject isEligible placed member)
      · exact composes.run_bind
          (maker.allows_content composes renders (signatures subject isEligible))
          fun node => composes.pure (Except.ok (subject.page node pages))

end PageMaker

end DocPages
