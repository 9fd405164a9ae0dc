import DocPages.Proofs.Page.Navigation
import DocPages.Proofs.Page.Requests
import Mathlib.Data.List.Nodup

/-!
# Sources of signatures

The pages of a module request signatures of its declarations, of the constructors of its classes and
of the extensions that its types list. A session that has served no other requests answers each with
the signature of one of these sources that has the key of the request. If all sources of one key
have one signature, the answer does not depend on the session.
-/

namespace DocPages

open Declaration Build

/-! ## Sessions -/

namespace Declaration

@[simp]
theorem key_unrenamed (declaration : Declaration) :
    SignatureKey.ofDeclaration declaration.unrenamed = .ofDeclaration declaration := by
  cases declaration <;> rfl

@[simp]
theorem nodesOf_unrenamed (declaration : Declaration) :
    Signature.nodesOf declaration.unrenamed = Signature.nodesOf declaration := by
  cases declaration <;> rfl

/-- The declaration is one of the sources, up to its name. -/
def IsAmong (sources : List Declaration) (declaration : Declaration) : Prop :=
  ∃ source ∈ sources, source.unrenamed = declaration.unrenamed

/-- Sources of one key have one signature. -/
def SignaturesAgree (sources : List Declaration) : Prop :=
  ∀ first ∈ sources, ∀ second ∈ sources,
    SignatureKey.ofDeclaration first = .ofDeclaration second →
      Signature.nodesOf first = Signature.nodesOf second

theorem signaturesAgree_of_nodup {sources : List Declaration}
    (distinct : (sources.map SignatureKey.ofDeclaration).Nodup) : SignaturesAgree sources :=
  fun first isFirst second isSecond sameKey => by
    rw [List.inj_on_of_nodup_map distinct isFirst isSecond sameKey]

/-- The nodes are the signature of a source with the key of the declaration. -/
def IsSigned (sources : List Declaration) (declaration : Declaration)
    (nodes : List Content.Node) : Prop :=
  ∃ source ∈ sources, SignatureKey.ofDeclaration source = .ofDeclaration declaration ∧
    Signature.nodesOf source = nodes

variable {sources : List Declaration} {declaration : Declaration}

theorem IsAmong.isSigned (among : declaration.IsAmong sources) :
    declaration.IsSigned sources (Signature.nodesOf declaration) := by
  obtain ⟨source, isSource, same⟩ := among
  refine ⟨source, isSource, ?_, ?_⟩
  · rw [← key_unrenamed, same, key_unrenamed]
  · rw [← nodesOf_unrenamed, same, nodesOf_unrenamed]

/-- If sources of one key have one signature, the declaration has no other. -/
theorem IsSigned.eq_nodesOf {nodes : List Content.Node}
    (isSigned : declaration.IsSigned sources nodes) (agree : SignaturesAgree sources)
    (among : declaration.IsAmong sources) :
    nodes = Signature.nodesOf declaration := by
  obtain ⟨first, isFirst, firstKey, rfl⟩ := isSigned
  obtain ⟨second, isSecond, secondKey, same⟩ := among.isSigned
  rw [← same]
  exact agree first isFirst second isSecond (firstKey.trans secondKey.symm)

end Declaration

/-- The cache holds signatures of the sources alone. -/
def Session.CachesFrom (sources : List Declaration) (session : Session) : Prop :=
  ∀ entry ∈ session.cache.entries, ∃ source ∈ sources,
    entry = (.ofDeclaration source, Signature.nodesOf source)

theorem Session.cachesFrom_fresh (sources : List Declaration) : Session.CachesFrom sources {} :=
  fun _ member => (List.not_mem_nil member).elim

namespace Build

variable {sources : List Declaration} {declaration : Declaration}

/-- A request is answered with the signature of a source with its key. -/
theorem ensures_signature (among : declaration.IsAmong sources) :
    Ensures (Session.CachesFrom sources) (signature declaration)
      (declaration.IsSigned sources) := by
  intro session caches
  rcases signature_cases declaration session with ⟨nodes, cached, run⟩ | ⟨-, run⟩
  · rw [run]
    refine ⟨?_, caches⟩
    obtain ⟨entry, found, rfl⟩ := Option.map_eq_some_iff.mp cached
    obtain ⟨source, isSource, rfl⟩ := caches entry (List.mem_of_find?_eq_some found)
    exact ⟨source, isSource, by simpa using List.find?_some found, rfl⟩
  · rw [run]
    refine ⟨among.isSigned, fun entry member => ?_⟩
    rcases List.mem_cons.mp member with rfl | inCache
    · obtain ⟨source, isSource, sameKey, sameNodes⟩ := among.isSigned
      exact ⟨source, isSource, by rw [sameKey, sameNodes]⟩
    · exact caches entry inCache

/-- If sources of one key have one signature, a request has one answer. -/
theorem obeys_signature (agree : SignaturesAgree sources) (among : declaration.IsAmong sources) :
    (Content.Fragment.signature declaration).Obeys (settling (Session.CachesFrom sources)) :=
  fun _ => ⟨Signature.nodesOf declaration, (ensures_signature among).weaken fun _ isSigned =>
    isSigned.eq_nodesOf agree among⟩

end Build

/-! ## Sources of a module -/

/-- The declarations whose signatures the pages of a module request: what it declares with its
constructors and its extensions. -/
def ModuleDecl.sources (decl : ModuleDecl) : List Declaration :=
  decl.declarations.flatMap fun declaration =>
    declaration :: (declaration.constructors ++ declaration.ownExtensions)

section

variable {decl : ModuleDecl}

namespace Declaration

theorem isAmong_of_mem {sources : List Declaration} {declaration : Declaration}
    (member : declaration ∈ sources) : declaration.IsAmong sources := ⟨declaration, member, rfl⟩

theorem IsDeclaredIn.isAmong {declaration : Declaration}
    (declared : declaration.IsDeclaredIn decl) : declaration.IsAmong decl.sources := by
  obtain ⟨source, isDeclared, same⟩ := declared
  exact ⟨source, List.mem_flatMap.mpr ⟨source, isDeclared, List.mem_cons_self⟩, same⟩

/-- The constructors and the extensions of what is declared are sources. -/
theorem IsDeclaredIn.mem_sources {declaration inner : Declaration}
    (declared : declaration.IsDeclaredIn decl)
    (member : inner ∈ declaration.constructors ∨ inner ∈ declaration.ownExtensions) :
    inner ∈ decl.sources := by
  obtain ⟨source, isDeclared, same⟩ := declared
  rw [← constructors_unrenamed, ← ownExtensions_unrenamed, ← same, constructors_unrenamed,
    ownExtensions_unrenamed, ← List.mem_append] at member
  exact List.mem_flatMap.mpr ⟨source, isDeclared, List.mem_cons_of_mem source member⟩

theorem mem_enumEntries_of_mem_listedEntries {declaration entry : Declaration}
    (member : entry ∈ declaration.listedEntries) : entry ∈ declaration.enumEntries := by
  cases declaration with
  | classlike type =>
      rw [listedEntries] at member
      split at member
      · exact member
      · exact (List.not_mem_nil member).elim
  | module | package | typeAlias | function | property | enumEntry =>
      exact (List.not_mem_nil member).elim

end Declaration

/-- The members of what is declared are declared. -/
theorem Members.mem_declarations_of_mem_all {holders : List Declaration}
    (declared : ∀ holder ∈ holders, holder.IsDeclaredIn decl) {declaration : Declaration}
    (member : declaration ∈ (Members.ofDeclarations holders).all) :
    declaration ∈ decl.declarations := by
  simp only [all, ofDeclarations, List.mem_append, List.mem_flatMap, ← exists_or, ← and_or_left]
    at member
  obtain ⟨holder, isHolder, inHolder⟩ := member
  refine (declared holder isHolder).mem_of_mem_members ?_
  rw [or_assoc] at inHolder
  exact inHolder.imp_right .inr

/-- What the page is for is declared in the module or a source of it. -/
structure Subject.IsSourced (decl : ModuleDecl) (subject : Subject) : Prop where
  belongs : subject.BelongsTo decl
  members : ∀ group, subject = .members group → ∀ declaration ∈ group,
    declaration.IsAmong decl.sources

theorem Subject.isSourced_module (decl : ModuleDecl) : (Subject.module decl).IsSourced decl where
  belongs := rfl
  members _ equality := nomatch equality

/-- Pages below a page of sources are for sources. -/
theorem Arrangement.isSourced_of_places {arrangement : Arrangement} {subject placed : Subject}
    (sourced : subject.IsSourced decl) (places : arrangement.Places subject placed) :
    placed.IsSourced decl where
  belongs := belongsTo_of_places sourced.belongs places
  members := by
    rintro group rfl declaration member
    cases places with
    | constructor isConstructor =>
        obtain rfl := List.mem_singleton.mp member
        cases subject with
        | classlikes types =>
            obtain ⟨type, isType, inType⟩ := exists_of_mem_shownConstructors isConstructor
            exact isAmong_of_mem ((sourced.belongs type isType).mem_sources (.inl inType))
        | module | allTypes | package | enumEntries | members =>
            exact (List.not_mem_nil isConstructor).elim
    | functions isGroup | properties isGroup =>
        obtain ⟨sibling, isSibling, same⟩ := arrangement.exists_sibling_of_mem_groups isGroup member
        obtain ⟨holder, isHolder, inHolder⟩ := List.mem_flatMap.mp (List.mem_filter.mp isSibling).1
        have declared := sourced.belongs.isDeclaredIn_of_mem_holders isHolder
        refine ((isDeclaredIn_of_mem ?_).of_unrenamed_eq same).isAmong
        exact declared.mem_of_mem_members (by simp [inHolder])

theorem Arrangement.isSourced_of_mem_below (arrangement : Arrangement) (subject : Subject)
    (sourced : subject.IsSourced decl) :
    ∀ placed ∈ arrangement.below subject, placed.IsSourced decl := fun _ member =>
  isSourced_of_places sourced (arrangement.places_of_mem_below member)

namespace Subject

/-- A page of sources requests signatures of sources. -/
theorem IsSourced.isAmong_of_mem_requested {subject : Subject} (sourced : subject.IsSourced decl)
    {declaration : Declaration} (member : declaration ∈ subject.requested) :
    declaration.IsAmong decl.sources := by
  cases subject with
  | module | allTypes => exact (List.not_mem_nil member).elim
  | package package =>
      refine (isDeclaredIn_of_mem (Members.mem_declarations_of_mem_all (fun holder isHolder => ?_)
        member)).isAmong
      obtain rfl := List.mem_singleton.mp isHolder
      exact isDeclaredIn_of_mem
        (List.mem_flatMap.mpr ⟨package, sourced.belongs, self_mem_within _⟩)
  | members group => exact sourced.members group rfl declaration member
  | classlikes group | enumEntries group =>
      simp only [requested, List.mem_append] at member
      rcases member with (((inGroup | isConstructor) | isEntry) | isMember) | isExtension
      · exact (sourced.belongs declaration inGroup).isAmong
      · obtain ⟨type, isType, inType⟩ := exists_of_mem_shownConstructors isConstructor
        exact isAmong_of_mem ((sourced.belongs type isType).mem_sources (.inl inType))
      · obtain ⟨type, isType, inType⟩ := List.mem_flatMap.mp isEntry
        exact (isDeclaredIn_of_mem ((sourced.belongs type isType).mem_of_mem_members
          (.inr (.inl (mem_enumEntries_of_mem_listedEntries inType))))).isAmong
      · refine (isDeclaredIn_of_mem (Members.mem_declarations_of_mem_all (fun holder isHolder => ?_)
          isMember)).isAmong
        exact sourced.belongs holder (List.mem_filter.mp isHolder).1
      · obtain ⟨type, isType, inType⟩ := List.mem_flatMap.mp (mem_of_mem_distinctBy isExtension)
        exact isAmong_of_mem
          ((sourced.belongs type (List.mem_filter.mp isType).1).mem_sources (.inr inType))

end Subject

end

end DocPages
