import DocPages.Proofs.Exchange.Names
import DocPages.Proofs.Page.Passes
import DocPages.Proofs.Page.Sources

/-!
# Pages of members

The page of a group of functions or properties shows a variant for each of them. The signature in it
comes from the cache, so it is that of a declaration of the module with the same key, though it need
not be that of the member itself: a constructor and a function can share a key.
-/

namespace DocPages

open Content Declaration Build

variable {sources : List Declaration}

/-! ## Variants -/

/-- If sources of one key have one signature, signatures of sources are their own. -/
private theorem eq_map_of_signed (agree : SignaturesAgree sources)
    {declarations : List Declaration}
    (among : ∀ declaration ∈ declarations, declaration.IsAmong sources) {parts : List (List Node)}
    (signed : List.Forall₂ (IsSigned sources) declarations parts) :
    parts = declarations.map Signature.nodesOf := by
  induction signed with
  | nil => rfl
  | cons isSigned _ ih =>
      obtain ⟨isSource, areSources⟩ := List.forall_mem_cons.mp among
      rw [List.map_cons, isSigned.eq_nodesOf agree isSource, ih areSources]

namespace Content.Fragment

/-- The variant of a declaration with its description. -/
private def describedVariant (shown : Declaration × List Node) : Variant Build :=
  { dris := .singleton shown.1.dri, sourceSets := shown.1.sourceSets, extras := .empty
    divergent := some ({}, .signature shown.1), after := some ({}, .nodes shown.2) }

/-- What distinguishes the variant of a declaration is its signature. -/
private theorem ensures_makeVariant {shown : Declaration × List Node}
    (among : shown.1.IsAmong sources) (scope : Scope) :
    Ensures (Session.CachesFrom sources) (makeVariant scope (describedVariant shown))
      fun node => shown.1.IsSigned sources node.distinguishing := by
  have before : ∀ inner, Ensures (Session.CachesFrom sources) (makePart inner none) fun _ => True :=
    fun _ => ensures_pure trivial
  have divergent : ∀ inner, Ensures (Session.CachesFrom sources)
      (makePart inner (some ({}, .signature shown.1))) fun part =>
        ∃ scope nodes, part = some (.group scope nodes) ∧ shown.1.IsSigned sources nodes :=
    fun _ => (ensures_signature among).bind fun nodes isSigned =>
      ensures_pure ⟨_, nodes, rfl, isSigned⟩
  have after : ∀ inner, Ensures (Session.CachesFrom sources)
      (makePart inner (some ({}, .nodes shown.2))) fun _ => True :=
    fun _ _ caches => ⟨trivial, caches⟩
  refine (before _).bind fun first _ => (divergent _).bind fun part isPart => (after _).bind ?_
  obtain ⟨partScope, nodes, rfl, isSigned⟩ := isPart
  exact fun last _ => ensures_pure isSigned

/-- What distinguishes the variants of several declarations are their signatures, in order. -/
private theorem ensures_describedVariants {described : List (Declaration × List Node)}
    (among : ∀ shown ∈ described, shown.1.IsAmong sources) (groupId : String) (scope : Scope) :
    Ensures (Session.CachesFrom sources)
      (divergentGroup groupId {} true (described.map describedVariant) scope)
      fun nodes => List.Forall₂ (fun shown part => shown.1.IsSigned sources part) described
        ((nodes.flatMap Node.variants).map Node.distinguishing) := by
  have made : ∀ inner, Ensures (Session.CachesFrom sources)
      ((described.map describedVariant).mapM (makeVariant inner))
      (List.Forall₂ (fun shown node => shown.1.IsSigned sources node.distinguishing)
        described) := by
    intro inner
    rw [List.mapM_map]
    exact ensures_mapM fun shown member => ensures_makeVariant (among shown member) inner
  refine (made _).bind fun variants signed => ensures_pure ?_
  rw [List.flatMap_singleton, List.forall₂_map_right_iff]
  exact signed

end Content.Fragment

/-! ## Pages -/

/-- If the page is for members, these are sources up to their names, and what distinguishes its
variants are signatures of them, in order. -/
def Page.ShowsSignatures (sources : List Declaration) (page : Page) : Prop :=
  page.kind = .member →
    (∀ declaration ∈ page.declarations, declaration.IsAmong sources) ∧
      List.Forall₂ (IsSigned sources) page.declarations page.content.variantParts

namespace PageMaker

variable (maker : PageMaker)

/-- The page of a group of members shows a variant for each of them with its signature. -/
private theorem ensures_signedMembers {group : List Declaration}
    (renders : ∀ renderer ∈ maker.renderers,
      renderer.Obeys (keeping (Session.CachesFrom sources)))
    (among : ∀ declaration ∈ group, declaration.IsAmong sources) :
    Ensures (Session.CachesFrom sources) (maker.membersContent group) fun node =>
      List.Forall₂ (IsSigned sources) group node.variantParts := by
  have described : Ensures (Session.CachesFrom sources)
      (group.mapM fun member => return (member, ← maker.description member))
      (List.Forall₂ (fun member shown => Prod.fst shown = member) group) :=
    ensures_mapM fun member _ =>
      (Section.obeys_descriptions composes_keeping renders member _).bind fun _ _ =>
        ensures_pure rfl
  have cover : ∀ scope, Ensures (Session.CachesFrom sources)
      (Fragment.group { kind := some .cover } (.cover (groupName group)) scope)
      fun nodes => nodes.flatMap Node.variants = [] :=
    fun _ => ((Fragment.obeys_cover composes_keeping _) _).bind fun _ _ => ensures_pure rfl
  refine described.bind fun shown same => ?_
  have sameGroup : shown.map Prod.fst = group := by
    rw [← List.forall₂_eq_eq_eq, List.forall₂_map_left_iff]
    exact same.flip
  subst sameGroup
  have shownAmong : ∀ variant ∈ shown, variant.1.IsAmong sources := fun variant isShown =>
    among variant.1 (List.mem_map_of_mem isShown)
  have body : ∀ scope, Ensures (Session.CachesFrom sources)
      ((Fragment.group { kind := some .cover } (.cover (groupName (shown.map Prod.fst))) ++
        Fragment.divergentGroup "member" {} true (shown.map Fragment.describedVariant) :
          Fragment Build) scope)
      fun nodes => List.Forall₂ (fun variant part => variant.1.IsSigned sources part) shown
        ((nodes.flatMap Node.variants).map Node.distinguishing) := by
    intro scope
    refine Fragment.ensures_append (cover scope)
      (Fragment.ensures_describedVariants shownAmong "member" scope) ?_
    intro title nodes noVariants signed
    rwa [List.flatMap_append, noVariants, List.nil_append]
  refine (body _).bind fun nodes signed => ensures_pure ?_
  rw [List.forall₂_map_left_iff]
  exact signed

/-- The content of a page keeps signatures of sources, and what distinguishes its variants, if it is
for members, are their signatures. -/
private theorem ensures_signedContent {decl : ModuleDecl} {subject : Subject}
    (renders : ∀ renderer ∈ maker.renderers,
      renderer.Obeys (keeping (Session.CachesFrom decl.sources)))
    (sourced : subject.IsSourced decl) :
    EnsuresUnlessFailed (Session.CachesFrom decl.sources) (maker.content subject) fun node =>
      ∀ group, subject = .members group →
        List.Forall₂ (IsSigned decl.sources) group node.variantParts := by
  by_cases isMembers : ∃ group, subject = .members group
  · obtain ⟨group, rfl⟩ := isMembers
    refine Ensures.lift ((maker.ensures_signedMembers renders (sourced.members group rfl)).weaken
      fun node signed other same => ?_)
    obtain rfl := Subject.members.inj same
    exact signed
  · refine Ensures.weaken (maker.allows_content composes_keeping renders fun declaration member =>
      ?_) fun _ _ _ _ group same => absurd ⟨group, same⟩ isMembers
    exact fun _ => (ensures_signature (sourced.isAmong_of_mem_requested member)).weaken
      fun _ _ => trivial

/-- The pages for members of a module show signatures of the members. -/
private theorem ensures_showsSignatures (decl : ModuleDecl)
    (renders : ∀ renderer ∈ maker.renderers,
      renderer.Obeys (keeping (Session.CachesFrom decl.sources))) :
    EnsuresUnlessFailed (Session.CachesFrom decl.sources) (maker.build (.module decl)) fun page =>
      ∀ reached ∈ page.all, reached.ShowsSignatures decl.sources := by
  refine maker.ensures_all_of_build maker.isSourced_of_mem_below
    (fun _ sourced => maker.ensures_signedContent renders sourced) ?_
    (Subject.hasDri_module decl) (Subject.isSourced_module decl)
  intro subject content children sourced signed isMember
  cases subject with
  | members group => exact ⟨sourced.members group rfl, signed group rfl⟩
  | module | allTypes | package | classlikes | enumEntries => cases isMember

end PageMaker

/-! ## Modules -/

namespace ModuleDecl

/-- In the page tree of a module, every page for members shows a variant for each of them, in order.
What distinguishes the variant is the signature of a source with the key of the member, after the
standard passes; it is that of the member itself if sources of one key have one signature. -/
theorem variantParts_of_generate {settings : Settings} {decl : ModuleDecl} {generated : Generated}
    (success : decl.generate settings = .ok generated) :
    ∀ placed ∈ generated.root.walk, placed.2.kind = .member →
      List.Forall₂
        (fun declaration part => ∃ nodes, declaration.IsSigned decl.sources nodes ∧
          part = nodes.map (Pass.finish Pass.standard placed.1))
        placed.2.declarations placed.2.content.variantParts ∧
      (SignaturesAgree decl.sources → placed.2.content.variantParts =
        placed.2.declarations.map fun declaration =>
          (Signature.nodesOf declaration).map (Pass.finish Pass.standard placed.1)) := by
  have renders : ∀ renderer ∈ (decl.pageMaker settings []).renderers,
      renderer.Obeys (keeping (Session.CachesFrom decl.sources)) :=
    List.forall_mem_singleton.mpr (TagRenderer.obeys_sinceKotlin composes_keeping)
  have built := ((decl.pageMaker settings []).ensures_showsSignatures decl renders {}
    (Session.cachesFrom_fresh decl.sources)).1
  rw [generate, generateWith] at success
  split at success
  · cases success
  · rename_i page session run
    obtain rfl := Except.ok.inj success
    intro placed member isMember
    have inTree : placed ∈ (Pass.applyAll Pass.standard page).1.walk := member
    obtain ⟨original, inPage, sameKind, sameDeclarations, finished⟩ :=
      Pass.exists_of_mem_walk_applyAll inTree
    obtain ⟨among, signed⟩ := built page (congrArg Prod.fst run) original
      (List.mem_map_of_mem inPage) (sameKind ▸ isMember)
    rw [sameDeclarations, finished, Pass.variantParts_finish]
    constructor
    · rw [List.forall₂_map_right_iff]
      exact signed.imp fun declaration nodes isSigned => ⟨nodes, isSigned, rfl⟩
    · intro agree
      rw [eq_map_of_signed agree among signed, List.map_map]
      rfl

/-- Every page for members of the module shows their signatures. -/
theorem variantParts_of_generate_shapes :
    ∃ generated, shapes.generate {} = .ok generated ∧
      ∀ placed ∈ generated.root.walk, placed.2.kind = .member →
        placed.2.content.variantParts = placed.2.declarations.map fun declaration =>
          (Signature.nodesOf declaration).map (Pass.finish Pass.standard placed.1) := by
  obtain ⟨page, session, built⟩ := exists_page_shapes {}
  have run : ((shapes.pageMaker {} []).build (.module shapes)).run {} = (.ok page, session) := built
  obtain ⟨generated, success⟩ : ∃ generated, shapes.generate {} = .ok generated := by
    rw [generate, generateWith, run]
    exact ⟨_, rfl⟩
  have agree : SignaturesAgree shapes.sources := signaturesAgree_of_nodup (by decide)
  exact ⟨generated, success, fun placed member isMember =>
    (variantParts_of_generate success placed member isMember).2 agree⟩

/-- A module with a class `Foo` that has a constructor and a function of its name. -/
def constructorText : String :=
  "\x7b\"name\": \"app\", \"packages\": [\x7b
    \"dri\": \x7b\"package_name\": \"p\"\x7d, \"name\": \"p\",
    \"source_sets\": [\"app/common\"], \"classlikes\": [\x7b
      \"dri\": \x7b\"package_name\": \"p\", \"class_names\": \"Foo\"\x7d, \"name\": \"Foo\",
      \"source_sets\": [\"app/common\"],
      \"constructors\": [\x7b\"dri\": \x7b\"package_name\": \"p\", \"class_names\": \"Foo\",
        \"callable\": \x7b\"name\": \"Foo\"\x7d\x7d, \"name\": \"Foo\",
        \"source_sets\": [\"app/common\"], \"is_constructor\": true\x7d],
      \"functions\": [\x7b\"dri\": \x7b\"package_name\": \"p\", \"class_names\": \"Foo\",
        \"callable\": \x7b\"name\": \"Foo\"\x7d\x7d, \"name\": \"Foo\",
        \"source_sets\": [\"app/common\"]\x7d]\x7d]\x7d],
  \"source_sets\": [\x7b\"analysis_platform\": \"common\", \"display_name\": \"common\",
    \"id\": \"app/common\"\x7d]\x7d"

/-- The numbers of symbols in signatures. -/
private def counts : List (List Node) → List (List Nat) := List.map (List.map (·.children.length))

/-- The page of the constructor is built first, so that of the function shows its signature. -/
theorem exists_variantParts_ne :
    ∃ decl generated, ModuleDecl.parse "module.json" constructorText = .ok decl ∧
      decl.generate {} = .ok generated ∧
        ∃ placed ∈ generated.root.walk, placed.2.kind = .member ∧
          placed.2.content.variantParts ≠ placed.2.declarations.map fun declaration =>
            (Signature.nodesOf declaration).map (Pass.finish Pass.standard placed.1) := by
  have outcome : ((((Json.tokens? constructorText).bind (Json.assemble? [])).bind
      (ModuleDecl.ofJson false)).bind fun decl => (decl.generate {}).toOption.bind fun generated =>
        generated.root.walk.find? fun placed => decide (placed.2.kind = .member ∧
          counts placed.2.content.variantParts ≠
            counts (placed.2.declarations.map fun declaration =>
              (Signature.nodesOf declaration).map
                (Pass.finish Pass.standard placed.1)))).isSome := by
    rw [constructorText, Json.tokens?_ofList]
    decide +kernel
  obtain ⟨placed, found⟩ := Option.isSome_iff_exists.mp outcome
  obtain ⟨decl, read, found⟩ := Option.bind_eq_some_iff.mp found
  obtain ⟨generated, made, found⟩ := Option.bind_eq_some_iff.mp found
  have parsed : ModuleDecl.parse "module.json" constructorText = .ok decl := by
    rw [ModuleDecl.parse, Json.parse?, read]
  have selected := List.find?_some found
  obtain ⟨isMember, differ⟩ := of_decide_eq_true selected
  exact ⟨decl, generated, parsed, eq_ok_of_toOption made, placed, List.mem_of_find?_eq_some found,
    isMember, fun same => differ (congrArg counts same)⟩

end ModuleDecl

end DocPages
