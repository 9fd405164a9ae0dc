import DocPages.Page.Contents
import DocPages.Proofs.Declaration.Extras
import DocPages.Proofs.Siblings.PageGroups

/-!
# Extensions of a group of classes

The page of a group of types unites the extra properties of its classes, which fails only if two of
them have clash-aware names. Siblings that share a page are not renamed, and those that are renamed
stand alone or with type aliases, so every group on a page unites. What the page then lists are the
extensions of its classes in order, each variant once.
-/

namespace DocPages

namespace Declaration

/-- The extensions that a declaration lists. -/
def ownExtensions (declaration : Declaration) : List Declaration :=
  declaration.extras.callableExtensions.getD []

@[simp]
theorem ownExtensions_unrenamed (declaration : Declaration) :
    declaration.unrenamed.ownExtensions = declaration.ownExtensions := by
  cases declaration <;> rfl

/-- The extensions of the classes of a group in order, each variant once. -/
def listedExtensions (group : List Declaration) : List Declaration :=
  distinctBy variantKey ((group.filter isClasslike).flatMap ownExtensions)

/-- At most one class of the group has a clash-aware name. -/
def HasOneName (group : List Declaration) : Prop :=
  (group.filter isClasslike).Pairwise fun first second =>
    first.extras.clashAwareName = none ∨ second.extras.clashAwareName = none

/-! ## Uniting the classes of a group -/

private theorem callableExtensions_of_foldlM {types : List Declaration}
    {first last : Extras Declaration}
    (united : types.foldlM (fun merged type => merged.merge type.extras) first = .ok last) :
    last.callableExtensions.getD [] =
      first.callableExtensions.getD [] ++ types.flatMap ownExtensions := by
  induction types generalizing first with
  | nil =>
      obtain rfl := Except.ok.inj united
      exact (List.append_nil _).symm
  | cons head tail ih =>
      rw [List.foldlM_cons] at united
      cases step : first.merge head.extras with
      | error key =>
          rw [step] at united
          cases united
      | ok merged =>
          rw [step] at united
          rw [ih united, Extras.callableExtensions_of_merge step, List.append_assoc]
          rfl

private theorem exists_foldlM_eq_ok {types : List Declaration} {first : Extras Declaration}
    (free : ∀ type ∈ types, first.clashAwareName = none ∨ type.extras.clashAwareName = none)
    (oneName : types.Pairwise fun left right =>
      left.extras.clashAwareName = none ∨ right.extras.clashAwareName = none) :
    ∃ last, types.foldlM (fun merged type => merged.merge type.extras) first = .ok last := by
  induction types generalizing first with
  | nil => exact ⟨first, rfl⟩
  | cons head tail ih =>
      obtain ⟨headFree, tailFree⟩ := List.forall_mem_cons.mp free
      obtain ⟨headFirst, tailOneName⟩ := List.pairwise_cons.mp oneName
      obtain ⟨merged, step⟩ := Extras.exists_merge_eq_ok headFree
      rw [List.foldlM_cons, step]
      refine ih (fun type member => ?_) tailOneName
      -- The name after the step is that of one of its two sides.
      rw [Extras.clashAwareName_of_merge step]
      rcases tailFree type member with noFirst | noType
      · rcases headFirst type member with noHead | noType
        · exact .inl (by rw [noFirst, noHead, Option.none_or])
        · exact .inr noType
      · exact .inr noType

end Declaration

namespace PageMaker

open Declaration

/-- What the classes of a group unite to lists their extensions. -/
theorem eq_listedExtensions {group found : List Declaration}
    (united : extensions group = .ok found) : found = listedExtensions group := by
  rw [extensions] at united
  cases fold : (group.filter isClasslike).foldlM
      (fun merged type => merged.merge type.extras) Extras.empty with
  | error key =>
      rw [fold] at united
      cases united
  | ok merged =>
      rw [fold] at united
      obtain rfl := Except.ok.inj united
      rw [callableExtensions_of_foldlM fold]
      rfl

/-- The classes of a group unite if at most one of them has a clash-aware name. -/
theorem extensions_eq_ok {group : List Declaration} (oneName : HasOneName group) :
    extensions group = .ok (listedExtensions group) := by
  have noName : ∀ type ∈ group.filter isClasslike,
      (Extras.empty : Extras Declaration).clashAwareName = none ∨
        type.extras.clashAwareName = none := fun _ _ => .inl rfl
  obtain ⟨merged, fold⟩ := exists_foldlM_eq_ok noName oneName
  obtain ⟨found, united⟩ : ∃ found, extensions group = .ok found := by
    rw [extensions, fold]
    exact ⟨_, rfl⟩
  rw [united, eq_listedExtensions united]

/-- Extensions that pass the check are those of the classes of the group. -/
theorem eq_listedExtensions_of_checked {group found : List Declaration}
    (checked : checkedExtensions group = .ok found) : found = listedExtensions group := by
  rw [checkedExtensions] at checked
  split at checked
  · cases checked
  · rename_i united
    split at checked
    · cases checked
    · obtain rfl := Except.ok.inj checked
      exact eq_listedExtensions united

/-- The check fails on the first extension that is neither a function nor a property, if at most one
class of the group has a clash-aware name. -/
theorem checkedExtensions_eq {group : List Declaration} (oneName : HasOneName group) :
    checkedExtensions group =
      match extensionFailure? (listedExtensions group) with
      | some failure => .error failure
      | none => .ok (listedExtensions group) := by
  have united := extensions_eq_ok oneName
  cases failed : extensionFailure? (listedExtensions group) <;>
    simp [checkedExtensions, united, failed]

end PageMaker

/-! ## Groups on pages -/

namespace Declaration

private theorem hasOneName_of_unnamed {group : List Declaration}
    (unnamed : ∀ declaration ∈ group, declaration.extras.clashAwareName = none) :
    HasOneName group :=
  List.Pairwise.imp_of_mem
    (fun firstMember _ _ => .inl (unnamed _ (List.mem_filter.mp firstMember).1))
    (List.pairwise_of_forall fun _ _ => trivial)

private theorem hasOneName_singleton (declaration : Declaration) : HasOneName [declaration] := by
  cases isClass : declaration.isClasslike <;> simp [HasOneName, isClass]

/-- A type alias does not add a class to the group that it joins. -/
private theorem hasOneName_of_mem_addAlias {added : Declaration} (isAlias : added.isTypeAlias)
    {groups : List (List Declaration)} (oneName : ∀ group ∈ groups, HasOneName group) :
    ∀ group ∈ addAlias added groups, HasOneName group := by
  have noClass : added.isClasslike = false := by
    cases added <;> simp_all [isTypeAlias, isClasslike]
  induction groups with
  | nil =>
      intro group member
      obtain rfl := List.mem_singleton.mp member
      exact hasOneName_singleton added
  | cons head tail ih =>
      obtain ⟨headOneName, tailOneName⟩ := List.forall_mem_cons.mp oneName
      rw [addAlias]
      split
      · refine List.forall_mem_cons.mpr ⟨?_, tailOneName⟩
        have sameClasses : (head ++ [added]).filter isClasslike = head.filter isClasslike := by
          simp [noClass]
        rw [HasOneName, sameClasses]
        exact headOneName
      · exact List.forall_mem_cons.mpr ⟨headOneName, ih tailOneName⟩

end Declaration

namespace Arrangement

open Declaration

variable (arrangement : Arrangement) {siblings : List Declaration}
  (unnamed : ∀ sibling ∈ siblings, sibling.extras.clashAwareName = none)

include unnamed

private theorem hasOneName_of_mem_groups {group : List Declaration}
    (isGroup : group ∈ arrangement.groups siblings) : HasOneName group := by
  rw [groups] at isGroup
  split at isGroup
  · refine hasOneName_of_unnamed fun declaration member => unnamed declaration ?_
    have inGroups : declaration ∈ (mergeClashing siblings).flatten :=
      List.mem_flatten.mpr ⟨group, isGroup, member⟩
    exact (flatten_groupByFirstSeen_perm dri siblings).mem_iff.mp inGroups
  · obtain ⟨sibling, -, rfl⟩ := List.mem_map.mp isGroup
    exact hasOneName_singleton sibling

/-- At most one class of a group of types has a clash-aware name, if the types have none before they
are grouped. -/
theorem hasOneName_of_mem_typeGroups {group : List Declaration}
    (isGroup : group ∈ arrangement.typeGroups siblings) : HasOneName group := by
  have run : ∀ (aliases : List Declaration) (groups : List (List Declaration)),
      (∀ added ∈ aliases, added.isTypeAlias) → (∀ group ∈ groups, HasOneName group) →
        ∀ group ∈ aliases.foldl (fun groups added => addAlias added groups) groups,
          HasOneName group := by
    intro aliases
    induction aliases with
    | nil => exact fun groups _ oneName => oneName
    | cons added aliases ih =>
        intro groups areAliases oneName
        obtain ⟨isAlias, areAliases⟩ := List.forall_mem_cons.mp areAliases
        exact ih (addAlias added groups) areAliases (hasOneName_of_mem_addAlias isAlias oneName)
  refine run _ _ (fun added member => ?_) (fun group => ?_) group isGroup
  · have isActual := (List.mem_filter.mp member).2
    rw [isActualAlias, Bool.and_eq_true] at isActual
    exact isActual.1
  · refine arrangement.hasOneName_of_mem_groups fun sibling member => unnamed sibling ?_
    exact (List.mem_filter.mp member).1

end Arrangement

end DocPages
