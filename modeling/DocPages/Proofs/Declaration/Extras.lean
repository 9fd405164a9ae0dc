import Mathlib.Data.List.Induction
import DocPages.Declaration.Basic
import DocPages.Proofs.Collection.OrderedSet
import DocPages.Proofs.Platform.Dependent

/-!
# Uniting extra properties

Uniting the extra properties of variants is associative with the empty properties at either side,
failures included: only two clash-aware names conflict, and which variants are united first does not
change whether two of them meet. Lists are united in the order of the variants. The volatile mark is
left out, since it is dropped whenever two variants carry it.
-/

namespace DocPages

/-- Modifiers in one place of the order are equal. -/
instance : Std.LawfulEqOrd Modifier where
  eq_of_compare {left right} equal := by
    have compared : compare left.ctorIdx right.ctorIdx = .eq := equal
    have sameIndex : left.ctorIdx = right.ctorIdx := Std.LawfulEqCmp.eq_of_compare compared
    rw [← Modifier.ofNat_ctorIdx left, sameIndex, Modifier.ofNat_ctorIdx]

/-! ## Lists united by a key -/

section

variable {α κ : Type} [DecidableEq κ]

/-- The first list, followed by the elements of the second one whose keys are new. -/
def unitedBy (key : α → κ) (left right : List α) : List α :=
  right.foldl
    (fun kept item => if kept.any fun other => key other = key item then kept else kept ++ [item])
    left

theorem unitedBy_append_singleton (key : α → κ) (left right : List α) (item : α) :
    unitedBy key left (right ++ [item]) =
      if (unitedBy key left right).any fun other => key other = key item then
        unitedBy key left right
      else unitedBy key left right ++ [item] := by
  rw [unitedBy, List.foldl_append]
  rfl

/-- No key of the second list is missing. -/
theorem any_unitedBy (key : α → κ) (left : List α) {right : List α} {item : α}
    (member : item ∈ right) : (unitedBy key left right).any fun other => key other = key item := by
  induction right using List.reverseRecOn with
  | nil => simp at member
  | append_singleton right last ih =>
      rw [unitedBy_append_singleton]
      split
      · rename_i known
        rcases List.mem_append.mp member with earlier | isLast
        · exact ih earlier
        · rw [List.mem_singleton.mp isLast]
          exact known
      · rw [List.any_append, Bool.or_eq_true]
        rcases List.mem_append.mp member with earlier | isLast
        · exact .inl (ih earlier)
        · exact .inr (by simp [List.mem_singleton.mp isLast])

/-- The united elements keep the order of the lists. -/
theorem unitedBy_sublist (key : α → κ) (left right : List α) :
    (unitedBy key left right).Sublist (left ++ right) := by
  induction right using List.reverseRecOn with
  | nil => simp [unitedBy]
  | append_singleton right last ih =>
      rw [unitedBy_append_singleton, ← List.append_assoc]
      split
      · exact ih.trans (List.sublist_append_left _ _)
      · exact ih.append (List.Sublist.refl _)

theorem unitedBy_assoc (key : α → κ) (first second third : List α) :
    unitedBy key (unitedBy key first second) third =
      unitedBy key first (unitedBy key second third) := by
  induction third using List.reverseRecOn with
  | nil => rfl
  | append_singleton third last ih =>
      rw [unitedBy_append_singleton, unitedBy_append_singleton, ih]
      by_cases known : (unitedBy key second third).any fun other => key other = key last
      · -- An element of the same key came from the last two lists and is still there.
        obtain ⟨other, member, same⟩ := List.any_eq_true.mp known
        have stillKnown := any_unitedBy key first member
        rw [of_decide_eq_true same] at stillKnown
        rw [if_pos known, if_pos stillKnown]
      · rw [if_neg known, unitedBy_append_singleton]

end

namespace Extras

variable {δ : Type}

theorem uniteMarkers_eq (left right : List String) :
    uniteMarkers left right = unitedBy id left right := by
  simp [uniteMarkers, unitedBy]

theorem uniteWith_eq {α : Type} (unite : α → α → α) (left right : Option α) :
    uniteWith unite left right = left.merge unite right := by
  cases left <;> cases right <;> rfl

/-- The elements that are kept of two optional lists keep their order. -/
theorem getD_uniteWith_sublist {α : Type} {unite : List α → List α → List α}
    (sublist : ∀ left right, (unite left right).Sublist (left ++ right))
    (left right : Option (List α)) :
    ((uniteWith unite left right).getD []).Sublist (left.getD [] ++ right.getD []) := by
  cases left with
  | none => cases right <;> exact .refl _
  | some left =>
      cases right with
      | none => exact List.sublist_append_left left []
      | some right => exact sublist left right

instance : Std.Associative uniteAnnotations :=
  ⟨unitedBy_assoc AnnotationUse.dri⟩

instance : Std.Associative uniteMarkers where
  assoc first second third := by
    simp only [uniteMarkers_eq]
    exact unitedBy_assoc id first second third

instance : Std.Associative (OrderedSet.union : OrderedSet Modifier → _ → _) :=
  ⟨OrderedSet.union_assoc⟩

instance {α : Type} : Std.Associative fun _ later : α => later :=
  ⟨fun _ _ _ => rfl⟩

instance {α : Type} {combine : α → α → α} [Std.Associative combine] :
    Std.Associative (Dependent.mergeWith combine) :=
  ⟨Dependent.mergeWith_assoc⟩

instance : Std.Associative (fun left right : List δ => left ++ right) :=
  ⟨List.append_assoc⟩

/-- What a value of three sides unites to does not depend on which two are united first. -/
theorem uniteWith_assoc {α : Type} {unite : α → α → α} [Std.Associative unite]
    (first second third : Option α) :
    uniteWith unite (uniteWith unite first second) third =
      uniteWith unite first (uniteWith unite second third) := by
  simp only [uniteWith_eq]
  exact Std.Associative.assoc first second third

/-- The united properties of two sides without a conflict. -/
def united (left right : Extras δ) : Extras δ where
  additionalModifiers :=
    uniteWith (Dependent.mergeWith OrderedSet.union) left.additionalModifiers
      right.additionalModifiers
  annotations := uniteWith uniteAnnotations left.annotations right.annotations
  callableExtensions := uniteWith (· ++ ·) left.callableExtensions right.callableExtensions
  clashMarkers := uniteWith uniteMarkers left.clashMarkers right.clashMarkers
  clashAwareName := left.clashAwareName.or right.clashAwareName
  inheritedMember :=
    uniteWith (Dependent.mergeWith fun _ later => later) left.inheritedMember right.inheritedMember
  symbolAnchor := right.symbolAnchor.or left.symbolAnchor
  tab := right.tab.or left.tab
  volatile :=
    if left.volatile.isSome && right.volatile.isSome then none
    else left.volatile.or right.volatile

theorem merge_eq (left right : Extras δ) :
    left.merge right =
      if left.clashAwareName.isSome && right.clashAwareName.isSome then .error .clashAwareName
      else .ok (left.united right) :=
  rfl

theorem united_assoc {first second third : Extras δ} (firstLasting : first.volatile = none)
    (secondLasting : second.volatile = none) (thirdLasting : third.volatile = none) :
    (first.united second).united third = first.united (second.united third) := by
  simp only [united, uniteWith_assoc, Option.or_assoc, firstLasting, secondLasting, thirdLasting]
  rfl

/-- Both orders of uniting three sides meet the same conflicts. -/
theorem merge_assoc {first second third : Extras δ} (firstLasting : first.volatile = none)
    (secondLasting : second.volatile = none) (thirdLasting : third.volatile = none) :
    (do (← first.merge second).merge third) = (do first.merge (← second.merge third)) := by
  have assoc := united_assoc firstLasting secondLasting thirdLasting
  have nameOf : ∀ left right : Extras δ, (left.united right).clashAwareName.isSome =
      (left.clashAwareName.isSome || right.clashAwareName.isSome) := fun _ _ => Option.isSome_or
  simp only [merge_eq]
  cases firstNamed : first.clashAwareName.isSome <;>
    cases secondNamed : second.clashAwareName.isSome <;>
      cases thirdNamed : third.clashAwareName.isSome <;>
        simp [firstNamed, secondNamed, thirdNamed, nameOf, assoc, bind, Except.bind]

@[simp]
theorem empty_merge (extras : Extras δ) : empty.merge extras = .ok extras := by
  rw [merge_eq]
  simp [united, uniteWith_eq, empty]

@[simp]
theorem merge_empty (extras : Extras δ) : extras.merge empty = .ok extras := by
  rw [merge_eq]
  simp [united, uniteWith_eq, empty]

/-! ## What a merge keeps -/

/-- Extra properties can be united unless both sides have a clash-aware name. -/
theorem exists_merge_eq_ok {left right : Extras δ}
    (free : left.clashAwareName = none ∨ right.clashAwareName = none) :
    ∃ merged, left.merge right = .ok merged := by
  have noConflict : (left.clashAwareName.isSome && right.clashAwareName.isSome) = false := by
    rcases free with none | none <;> simp [none]
  rw [merge_eq, noConflict]
  exact ⟨_, rfl⟩

section

variable {left right merged : Extras δ} (success : left.merge right = .ok merged)

include success

private theorem eq_united_of_merge : merged = left.united right := by
  rw [merge_eq] at success
  split at success
  · cases success
  · exact (Except.ok.inj success).symm

theorem clashAwareName_of_merge :
    merged.clashAwareName = left.clashAwareName.or right.clashAwareName := by
  rw [eq_united_of_merge success, united]

/-- The extensions of both sides are listed one after another. -/
theorem callableExtensions_of_merge :
    merged.callableExtensions.getD [] =
      left.callableExtensions.getD [] ++ right.callableExtensions.getD [] := by
  rw [eq_united_of_merge success, united]
  cases left.callableExtensions <;> cases right.callableExtensions <;> simp [uniteWith]

/-- The annotations that are kept stand in the order of the two sides. -/
theorem annotations_of_merge :
    (merged.annotations.getD []).Sublist
      (left.annotations.getD [] ++ right.annotations.getD []) := by
  rw [eq_united_of_merge success, united]
  exact getD_uniteWith_sublist (unitedBy_sublist AnnotationUse.dri) _ _

/-- The markers that are kept stand in the order of the two sides. -/
theorem clashMarkers_of_merge :
    (merged.clashMarkers.getD []).Sublist
      (left.clashMarkers.getD [] ++ right.clashMarkers.getD []) := by
  rw [eq_united_of_merge success, united]
  refine getD_uniteWith_sublist (fun left right => ?_) _ _
  rw [uniteMarkers_eq]
  exact unitedBy_sublist id left right

end

/-- Three variants unite to the same extra properties or to the same conflict, whichever two are
united first, and the empty properties change nothing on either side. On success the extensions of
the variants follow one another, and the annotations and markers that are kept stand in their
order. -/
theorem merge_assoc_with_identity {first second third : Extras δ}
    (firstLasting : first.volatile = none) (secondLasting : second.volatile = none)
    (thirdLasting : third.volatile = none) :
    (do (← first.merge second).merge third) = (do first.merge (← second.merge third)) ∧
      empty.merge first = .ok first ∧ first.merge empty = .ok first ∧
      ∀ merged, (do (← first.merge second).merge third) = .ok merged →
        merged.callableExtensions.getD [] =
          first.callableExtensions.getD [] ++ second.callableExtensions.getD [] ++
            third.callableExtensions.getD [] ∧
        (merged.annotations.getD []).Sublist
          (first.annotations.getD [] ++ second.annotations.getD [] ++
            third.annotations.getD []) ∧
        (merged.clashMarkers.getD []).Sublist
          (first.clashMarkers.getD [] ++ second.clashMarkers.getD [] ++
            third.clashMarkers.getD []) := by
  refine ⟨merge_assoc firstLasting secondLasting thirdLasting, empty_merge first,
    merge_empty first, fun merged success => ?_⟩
  obtain ⟨both, unitedBoth, success⟩ : ∃ both, first.merge second = .ok both ∧
      both.merge third = .ok merged := by
    cases step : first.merge second with
    | error key => simp [step, bind, Except.bind] at success
    | ok both => exact ⟨both, rfl, by simpa [step, bind, Except.bind] using success⟩
  refine ⟨?_, ?_, ?_⟩
  · rw [callableExtensions_of_merge success, callableExtensions_of_merge unitedBoth]
  · exact (annotations_of_merge success).trans ((annotations_of_merge unitedBoth).append (.refl _))
  · exact (clashMarkers_of_merge success).trans
      ((clashMarkers_of_merge unitedBoth).append (.refl _))

/-- The extra properties of the variant of a class on one platform. -/
private def ofVariant (platform : String) (clashAwareName : Option String) :
    Extras Declaration where
  additionalModifiers := some (.uniform [⟨"shapes", platform⟩] (.singleton .openMember))
  annotations :=
    some [{ dri := .ofClass "shapes" "Stable", params := [("since", platform)] },
      { dri := .ofClass "shapes" platform }]
  callableExtensions := some [.package { common := { dri := .ofPackage platform } }]
  clashMarkers := some [platform, "expect"]
  clashAwareName

theorem merge_assoc_with_identity_variants :
    let common := ofVariant "common" none
    let jvm := ofVariant "jvm" (some "[JVM]Box")
    let js := ofVariant "js" none
    common.volatile = none ∧ jvm.volatile = none ∧ js.volatile = none ∧
      (do (← common.merge jvm).merge js) = (do common.merge (← jvm.merge js)) ∧
      ∃ merged, (do (← common.merge jvm).merge js) = .ok merged ∧
        merged.clashMarkers = some ["common", "expect", "jvm", "js"] :=
  ⟨rfl, rfl, rfl, (merge_assoc_with_identity rfl rfl rfl).1, _, rfl, by decide⟩

end Extras

end DocPages
