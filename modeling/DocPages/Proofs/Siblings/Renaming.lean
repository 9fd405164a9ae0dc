import Mathlib.Data.List.Forall2
import DocPages.Proofs.Collection.Grouping
import DocPages.Proofs.Declaration.Nesting
import DocPages.Siblings.Clash

/-!
# Renamed siblings

Renaming brings siblings with clashing identities together and gives each of them its clashed name.
A clash-aware name is no part of the identity and takes no part in the clashed name, so a second
renaming changes nothing.
-/

namespace DocPages

namespace Declaration

def isModule : Declaration → Bool
  | .module _ => true
  | _ => false

/-! ## Clash-aware names -/

section

variable (name : String) (declaration : Declaration)

@[simp]
theorem dri_withClashAwareName : (declaration.withClashAwareName name).dri = declaration.dri := by
  cases declaration <;> rfl

@[simp]
theorem clashedName_withClashAwareName (registry : Registry) :
    (declaration.withClashAwareName name).clashedName registry =
      declaration.clashedName registry := by
  cases declaration <;> rfl

/-- The later clash-aware name replaces the earlier one. -/
@[simp]
theorem withClashAwareName_withClashAwareName (earlier : String) :
    (declaration.withClashAwareName earlier).withClashAwareName name =
      declaration.withClashAwareName name := by
  cases declaration <;> rfl

variable {declaration}

theorem withClashAwareName_of_isModule (isModule : declaration.isModule) :
    declaration.withClashAwareName name = declaration := by
  cases declaration with
  | module => rfl
  | package | classlike | typeAlias | function | property | enumEntry => cases isModule

theorem clashAwareName_withClashAwareName (notModule : declaration.isModule = false) :
    (declaration.withClashAwareName name).extras.clashAwareName = some name := by
  cases declaration with
  | module => cases notModule
  | package | classlike | typeAlias | function | property | enumEntry => rfl

end

/-! ## Siblings that clash -/

/-- The identities agree up to the extra mark. -/
def Clashes (left right : Declaration) : Prop :=
  left.dri.withoutExtra = right.dri.withoutExtra

instance (left right : Declaration) : Decidable (left.Clashes right) :=
  inferInstanceAs (Decidable (_ = _))

section

variable {left right : Declaration}

theorem Clashes.symm (clashes : left.Clashes right) : right.Clashes left :=
  Eq.symm clashes

/-- What clashes with one of two clashing declarations clashes with the other. -/
theorem Clashes.clashes_iff (clashes : left.Clashes right) (other : Declaration) :
    other.Clashes left ↔ other.Clashes right :=
  ⟨fun first => Eq.trans first clashes, fun second => Eq.trans second (Eq.symm clashes)⟩

end

/-- The siblings by identity up to the extra mark. -/
def clashGroups (siblings : List Declaration) : List (List Declaration) :=
  groupByFirstSeen (fun sibling => sibling.dri.withoutExtra) siblings

/-- Only one of the siblings clashes with the declaration, which is itself one of them. -/
def StandsAlone (siblings : List Declaration) (declaration : Declaration) : Prop :=
  (siblings.countP fun other => other.Clashes declaration) = 1

instance (siblings : List Declaration) (declaration : Declaration) :
    Decidable (StandsAlone siblings declaration) :=
  inferInstanceAs (Decidable (_ = _))

variable {registry : Registry} {siblings group : List Declaration}

/-- A group has all siblings that clash with one of them. -/
theorem exists_sibling_of_mem_clashGroups (isGroup : group ∈ clashGroups siblings) :
    ∃ sibling ∈ siblings, group = siblings.filter fun other => other.Clashes sibling := by
  obtain ⟨value, isKey, rfl⟩ := mem_groupByFirstSeen.mp isGroup
  obtain ⟨sibling, member, rfl⟩ := List.mem_map.mp isKey
  exact ⟨sibling, member, rfl⟩

/-- A sibling stands alone if it is the only one in its group. -/
theorem standsAlone_iff_of_mem_group (isGroup : group ∈ clashGroups siblings)
    {declaration : Declaration} (member : declaration ∈ group) :
    StandsAlone siblings declaration ↔ group.length = 1 := by
  obtain ⟨sibling, -, rfl⟩ := exists_sibling_of_mem_clashGroups isGroup
  have clashes : declaration.Clashes sibling := by simpa using (List.mem_filter.mp member).2
  simp only [StandsAlone, clashes.clashes_iff, List.countP_eq_length_filter]

/-- Two siblings that clash do not stand alone. -/
theorem not_standsAlone_of_sublist {left right : Declaration}
    (pair : [left, right].Sublist siblings) (clashes : left.Clashes right) :
    ¬ StandsAlone siblings left ∧ ¬ StandsAlone siblings right := by
  have two : ∀ declaration : Declaration, left.Clashes declaration → right.Clashes declaration →
      ¬ StandsAlone siblings declaration := by
    intro declaration leftClashes rightClashes alone
    have counted := pair.countP_le (p := fun other => other.Clashes declaration)
    rw [alone] at counted
    simp [leftClashes, rightClashes] at counted
  exact ⟨two left rfl clashes.symm, two right clashes rfl⟩

/-! ## Renaming in groups -/

/-- What renaming makes of one of the siblings. -/
def renamedAmong (registry : Registry) (siblings : List Declaration) (sibling : Declaration) :
    Declaration :=
  if StandsAlone siblings sibling then sibling
  else sibling.withClashAwareName (sibling.clashedName registry)

@[simp]
theorem dri_renamedAmong (sibling : Declaration) :
    (renamedAmong registry siblings sibling).dri = sibling.dri := by
  rw [renamedAmong]
  split <;> simp

@[simp]
theorem renamedAmong_clashes_iff {left right : Declaration} :
    (renamedAmong registry siblings left).Clashes right ↔ left.Clashes right := by
  rw [Clashes, Clashes, dri_renamedAmong]

@[simp]
theorem clashes_renamedAmong_iff {left right : Declaration} :
    left.Clashes (renamedAmong registry siblings right) ↔ left.Clashes right := by
  rw [Clashes, Clashes, dri_renamedAmong]

/-- Renaming keeps the order of the groups, in which every sibling is renamed on its own. -/
theorem renameClashing_eq (registry : Registry) (siblings : List Declaration) :
    renameClashing registry siblings =
      (clashGroups siblings).flatten.map (renamedAmong registry siblings) := by
  rw [renameClashing, List.map_flatten, ← List.flatMap_def]
  refine List.flatMap_congr fun group isGroup => ?_
  split
  · rename_i single
    have alone := (standsAlone_iff_of_mem_group isGroup List.mem_cons_self).mpr rfl
    rw [List.map_singleton, renamedAmong, if_pos alone]
  · rename_i several
    have notOne : group.length ≠ 1 := by
      intro one
      obtain ⟨single, isSingle⟩ := List.length_eq_one_iff.mp one
      exact several single isSingle
    refine List.map_congr_left fun declaration member => ?_
    have notAlone := mt (standsAlone_iff_of_mem_group isGroup member).mp notOne
    rw [renamedAmong, if_neg notAlone]

/-- A renamed declaration is the sibling under the name that tells it apart: the sibling itself if
it stands alone or is a module, or else the sibling with its clashed name and nothing else
changed. -/
structure IsRenamed (registry : Registry) (siblings : List Declaration)
    (sibling renamed : Declaration) : Prop where
  unrenamed : renamed.unrenamed = sibling.unrenamed
  alone : StandsAlone siblings sibling ∨ sibling.isModule → renamed = sibling
  clashing : ¬ StandsAlone siblings sibling → sibling.isModule = false →
    renamed.extras.clashAwareName = some (sibling.clashedName registry)

theorem isRenamed_renamedAmong (registry : Registry) (siblings : List Declaration)
    (sibling : Declaration) :
    IsRenamed registry siblings sibling (renamedAmong registry siblings sibling) := by
  rw [renamedAmong]
  split
  · rename_i alone
    exact ⟨rfl, fun _ => rfl, fun notAlone => (notAlone alone).elim⟩
  · rename_i notAlone
    refine ⟨unrenamed_withClashAwareName _ sibling, ?_, fun _ notModule => ?_⟩
    · rintro (alone | isModule)
      · exact (notAlone alone).elim
      · exact withClashAwareName_of_isModule _ isModule
    · exact clashAwareName_withClashAwareName _ notModule

/-- Renaming changes the clash-aware names only. -/
theorem renameClashing_perm (registry : Registry) (siblings : List Declaration) :
    ((renameClashing registry siblings).map unrenamed).Perm (siblings.map unrenamed) := by
  have each : unrenamed ∘ renamedAmong registry siblings = unrenamed := by
    funext sibling
    exact (isRenamed_renamedAmong registry siblings sibling).unrenamed
  rw [renameClashing_eq, List.map_map, each]
  exact (flatten_groupByFirstSeen_perm _ siblings).map unrenamed

/-- Siblings whose identities differ even without the extra mark stay as they are. -/
theorem renameClashing_eq_self (registry : Registry) {siblings : List Declaration}
    (apart : (siblings.map fun sibling => sibling.dri.withoutExtra).Nodup) :
    renameClashing registry siblings = siblings := by
  rw [renameClashing, groupByFirstSeen_eq_singletons apart, List.flatMap_map]
  exact List.flatMap_singleton' siblings

/-- Renamed siblings form the groups that they came from. -/
theorem clashGroups_renameClashing (registry : Registry) (siblings : List Declaration) :
    clashGroups (renameClashing registry siblings) =
      (clashGroups siblings).map (List.map (renamedAmong registry siblings)) := by
  rw [renameClashing_eq, clashGroups, groupByFirstSeen_map]
  simp only [dri_renamedAmong]
  exact congrArg _ (groupByFirstSeen_flatten _ siblings)

theorem standsAlone_renameClashing (declaration : Declaration) :
    StandsAlone (renameClashing registry siblings) declaration ↔
      StandsAlone siblings declaration := by
  have perm : (clashGroups siblings).flatten.Perm siblings := flatten_groupByFirstSeen_perm _ _
  rw [StandsAlone, StandsAlone, renameClashing_eq, List.countP_map, ← perm.countP_eq]
  simp only [Function.comp_def, renamedAmong_clashes_iff]

/-- What is renamed once stays as it is. -/
theorem renameClashing_renameClashing (registry : Registry) (siblings : List Declaration) :
    renameClashing registry (renameClashing registry siblings) =
      renameClashing registry siblings := by
  let renamed := renameClashing registry siblings
  have again : ∀ sibling, renamedAmong registry renamed (renamedAmong registry siblings sibling) =
      renamedAmong registry siblings sibling := by
    intro sibling
    have same : StandsAlone renamed (renamedAmong registry siblings sibling) ↔
        StandsAlone siblings sibling := by
      rw [standsAlone_renameClashing, StandsAlone, StandsAlone]
      simp only [clashes_renamedAmong_iff]
    rw [renamedAmong]
    by_cases alone : StandsAlone siblings sibling
    · rw [if_pos (same.mpr alone)]
    · -- The clashed name is computed anew, and is the same.
      rw [if_neg (mt same.mp alone), renamedAmong, if_neg alone]
      simp
  calc renameClashing registry renamed
      = (clashGroups renamed).flatten.map (renamedAmong registry renamed) :=
        renameClashing_eq registry renamed
    _ = (clashGroups siblings).flatten.map fun sibling =>
          renamedAmong registry renamed (renamedAmong registry siblings sibling) := by
        rw [clashGroups_renameClashing, ← List.map_flatten, List.map_map]
        rfl
    _ = (clashGroups siblings).flatten.map (renamedAmong registry siblings) :=
        List.map_congr_left fun sibling _ => again sibling
    _ = renamed := (renameClashing_eq registry siblings).symm

/-- Up to the clash-aware names, renaming rearranges the siblings: those that clash follow one
another in the order of the siblings, and the groups stand in the order of their first members. A
sibling that stands alone is returned unchanged, any other one that is not a module differs only in
its clash-aware name, which is its clashed name, and a second renaming changes nothing. -/
theorem renameClashing_arranges (registry : Registry) (siblings : List Declaration) :
    let renamed := renameClashing registry siblings
    (renamed.map unrenamed).Perm (siblings.map unrenamed) ∧
      (∃ groups : List (List Declaration),
        groups.flatten.Perm siblings ∧
          (∀ group ∈ groups, ∃ sibling ∈ siblings,
            group = siblings.filter fun other => other.Clashes sibling) ∧
          (groups.Pairwise fun earlier later => ∀ first ∈ earlier, ∀ second ∈ later,
            (siblings.findIdx fun other => other.Clashes first) <
              siblings.findIdx fun other => other.Clashes second) ∧
          List.Forall₂ (IsRenamed registry siblings) groups.flatten renamed) ∧
      renameClashing registry renamed = renamed := by
  refine ⟨renameClashing_perm registry siblings, ⟨clashGroups siblings, ?_, ?_, ?_, ?_⟩,
    renameClashing_renameClashing registry siblings⟩
  · exact flatten_groupByFirstSeen_perm _ siblings
  · exact fun group isGroup => exists_sibling_of_mem_clashGroups isGroup
  · exact pairwise_groupByFirstSeen _ siblings
  · rw [renameClashing_eq, List.forall₂_map_right_iff, List.forall₂_same]
    exact fun sibling _ => isRenamed_renamedAmong registry siblings sibling

end Declaration

end DocPages
