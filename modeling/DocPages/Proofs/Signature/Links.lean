import DocPages.Proofs.Content.Fragments

/-!
# What signatures link to

The signature of a declaration links to the declaration, once for each source set. A cached
signature may be that of another declaration with the same key, and that links to the same identity.
-/

namespace DocPages

open Content Build Node

namespace Declaration

/-- The declaration has a signature if it has a source set: it is no module and no package. -/
def hasSignature : Declaration → Bool
  | .module _ | .package _ => false
  | _ => true

/-- What the signature of a declaration is sure to link to. -/
def signed (declaration : Declaration) : List Dri :=
  if Signature.writtenSourceSets declaration = [] then [] else [declaration.dri]

/-- A signature is written for the source sets of its declaration. -/
theorem writtenSourceSets_eq {declaration : Declaration} (shown : declaration.hasSignature) :
    Signature.writtenSourceSets declaration = declaration.sourceSets.toList := by
  cases declaration <;> first | rfl | simp [hasSignature] at shown

theorem signed_eq {declaration : Declaration} (shown : declaration.hasSignature)
    (declared : declaration.sourceSets.toList ≠ []) : declaration.signed = [declaration.dri] := by
  rw [signed, writtenSourceSets_eq shown, if_neg declared]

/-- The key of a signature decides which source sets it is written for. -/
theorem writtenSourceSets_eq_of_key {left right : Declaration}
    (same : SignatureKey.ofDeclaration left = SignatureKey.ofDeclaration right) :
    Signature.writtenSourceSets left = Signature.writtenSourceSets right := by
  simp only [SignatureKey.ofDeclaration, SignatureKey.mk.injEq] at same
  obtain ⟨-, sameSourceSets, sameKind⟩ := same
  cases left <;> cases right <;> simp_all [kindName, Signature.writtenSourceSets]

/-- The key of a signature decides what it is sure to link to. -/
theorem signed_eq_of_key {left right : Declaration}
    (same : SignatureKey.ofDeclaration left = SignatureKey.ofDeclaration right) :
    left.signed = right.signed := by
  have sameDri : left.dri = right.dri := congrArg SignatureKey.dri same
  rw [signed, signed, writtenSourceSets_eq_of_key same, sameDri]

end Declaration

namespace Signature

/-- Every signature in a source set has a link to its declaration. -/
theorem exists_link_mem_declarationPieces {declaration : Declaration}
    (shown : declaration.hasSignature) (id : SourceSetId) :
    ∃ body, .link .main body declaration.dri ∈ declarationPieces declaration id := by
  cases declaration with
  | module | package => simp [Declaration.hasSignature] at shown
  | classlike decl | typeAlias decl | property decl | enumEntry decl =>
      refine ⟨decl.common.name.getD "", ?_⟩
      simp [declarationPieces, classlikePieces, typeAliasPieces, propertyPieces, nameLink,
        Declaration.dri, Declaration.common?]
  | function decl =>
      refine ⟨if decl.isConstructor then "constructor" else decl.common.name.getD "", ?_⟩
      cases form : decl.isConstructor <;>
        simp [declarationPieces, functionDeclPieces, nameLink, form, Declaration.dri,
          Declaration.common?]

private theorem links_sourceSetNode {declaration : Declaration}
    (shown : declaration.hasSignature) (id : SourceSetId) :
    declaration.dri ∈ (sourceSetNode declaration id).links := by
  obtain ⟨body, isPiece⟩ := exists_link_mem_declarationPieces shown id
  rw [sourceSetNode, links_eq]
  refine List.mem_append_right _ (List.mem_flatMap.mpr ⟨_, List.mem_map_of_mem isPiece, ?_⟩)
  rw [Piece.toNode, links_eq]
  exact List.mem_append_left _ (List.mem_singleton_self _)

/-- The signature of a declaration links to it in every source set. -/
theorem signed_subset_linksOf_nodesOf (declaration : Declaration) :
    declaration.signed ⊆ linksOf (nodesOf declaration) := by
  rw [Declaration.signed]
  split
  · exact List.nil_subset _
  · rename_i written
    obtain ⟨id, others, isFirst⟩ := List.exists_cons_of_ne_nil written
    have shown : declaration.hasSignature := by
      cases declaration <;> simp_all [Declaration.hasSignature, writtenSourceSets]
    intro dri isTarget
    obtain rfl := List.mem_singleton.mp isTarget
    rw [nodesOf, isFirst]
    exact List.mem_append_left _ (links_sourceSetNode shown id)

end Signature

/-! ## The cache -/

/-- Every cached signature is that of a declaration with its key. -/
def Session.IsSound (session : Session) : Prop :=
  ∀ entry ∈ session.cache.entries, ∃ declaration,
    entry = (.ofDeclaration declaration, Signature.nodesOf declaration)

theorem Session.isSound_empty : Session.IsSound {} := fun _ member =>
  (List.not_mem_nil member).elim

/-- A request for a signature gets that of a declaration with its key, whether from the cache or
made anew. -/
theorem Build.ensures_keyedSignature (declaration : Declaration) :
    Ensures Session.IsSound (signature declaration) fun nodes =>
      ∃ other, SignatureKey.ofDeclaration other = .ofDeclaration declaration ∧
        Signature.nodesOf other = nodes := by
  intro session sound
  rcases signature_cases declaration session with ⟨nodes, cached, run⟩ | ⟨-, run⟩
  · rw [run]
    obtain ⟨entry, found, rfl⟩ := Option.map_eq_some_iff.mp cached
    obtain ⟨other, rfl⟩ := sound entry (List.mem_of_find?_eq_some found)
    exact ⟨⟨other, by simpa using List.find?_some found, rfl⟩, sound⟩
  · rw [run]
    refine ⟨⟨declaration, rfl, rfl⟩, fun entry member => ?_⟩
    rcases List.mem_cons.mp member with rfl | inCache
    · exact ⟨declaration, rfl⟩
    · exact sound entry inCache

/-- A signature links to its declaration, whether it comes from the cache or is made anew. -/
theorem Content.Fragment.shows_signature (declaration : Declaration) :
    (Fragment.signature declaration).Shows Session.IsSound declaration.signed := by
  refine fun scope => (ensures_keyedSignature declaration).weaken fun nodes keyed => ?_
  obtain ⟨other, sameKey, rfl⟩ := keyed
  rw [← Declaration.signed_eq_of_key sameKey]
  exact Signature.signed_subset_linksOf_nodesOf other

end DocPages
