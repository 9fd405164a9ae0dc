import DocPages.Page.Subject
import DocPages.Proofs.Collection.OrderedSet
import DocPages.Proofs.Siblings.Renaming

/-!
# Siblings on pages

How sibling declarations are spread over pages. Whatever the settings, every sibling stands in
exactly one group, up to renaming, and the declarations of a group have one identity.
-/

namespace DocPages

namespace Declaration

/-! ## Groups of one identity -/

/-- A group has declarations, and all of them have the identity. -/
structure HaveDri (dri : Dri) (group : List Declaration) : Prop where
  nonempty : group ≠ []
  same : ∀ declaration ∈ group, declaration.dri = dri

/-- A declaration alone is a group of its identity. -/
theorem haveDri_singleton (declaration : Declaration) : HaveDri declaration.dri [declaration] where
  nonempty := List.cons_ne_nil _ _
  same := by simp

/-- A group of one identity has that identity only. -/
theorem HaveDri.toList_drisOf {dri : Dri} {group : List Declaration} (uniform : HaveDri dri group) :
    (drisOf group).toList = [dri] := by
  have nonempty : group.map Declaration.dri ≠ [] := by simpa using uniform.nonempty
  refine OrderedSet.toList_ofList_of_forall_eq nonempty fun other member => ?_
  obtain ⟨declaration, inGroup, rfl⟩ := List.mem_map.mp member
  exact uniform.same declaration inGroup

/-- Merged siblings have one identity. -/
theorem haveDri_of_mem_mergeClashing {siblings group : List Declaration}
    (isGroup : group ∈ mergeClashing siblings) : ∃ dri, HaveDri dri group := by
  have nonempty := ne_nil_of_mem_groupByFirstSeen isGroup
  obtain ⟨first, rest, rfl⟩ := List.exists_cons_of_ne_nil nonempty
  exact ⟨first.dri, nonempty, fun declaration member =>
    key_eq_of_mem_group isGroup member List.mem_cons_self⟩

theorem HaveDri.append {dri : Dri} {group : List Declaration} {added : Declaration}
    (uniform : HaveDri dri group) (joins : ∃ type ∈ group, type.dri = added.dri) :
    HaveDri dri (group ++ [added]) := by
  obtain ⟨type, inGroup, sameDri⟩ := joins
  refine ⟨by simp, fun declaration member => ?_⟩
  rcases List.mem_append.mp member with old | isAdded
  · exact uniform.same declaration old
  · obtain rfl := List.mem_singleton.mp isAdded
    exact sameDri.symm.trans (uniform.same type inGroup)

/-- Adding a type alias keeps groups of one identity so, as it joins a class of its identity or
stands alone. -/
theorem haveDri_of_mem_addAlias {added : Declaration} {groups : List (List Declaration)}
    (uniform : ∀ group ∈ groups, ∃ dri, HaveDri dri group) :
    ∀ group ∈ addAlias added groups, ∃ dri, HaveDri dri group := by
  induction groups with
  | nil =>
      intro group member
      obtain rfl := List.mem_singleton.mp member
      exact ⟨added.dri, haveDri_singleton added⟩
  | cons head tail ih =>
      obtain ⟨headUniform, tailUniform⟩ := List.forall_mem_cons.mp uniform
      intro group member
      rw [addAlias] at member
      split at member
      · rename_i joins
        rcases List.mem_cons.mp member with rfl | inTail
        · obtain ⟨dri, isUniform⟩ := headUniform
          obtain ⟨type, inHead, -, sameDri⟩ : ∃ type ∈ head,
              type.isClasslike = true ∧ type.dri = added.dri := by simpa using joins
          exact ⟨dri, isUniform.append ⟨type, inHead, sameDri⟩⟩
        · exact tailUniform group inTail
      · rcases List.mem_cons.mp member with rfl | inTail
        · exact headUniform
        · exact ih tailUniform group inTail

/-! ## Every sibling once -/

theorem flatten_addAlias_perm (added : Declaration) (groups : List (List Declaration)) :
    (addAlias added groups).flatten.Perm (groups.flatten ++ [added]) := by
  induction groups with
  | nil => simp [addAlias]
  | cons head tail ih =>
      rw [addAlias]
      split
      · have swapped : ([added] ++ tail.flatten).Perm (tail.flatten ++ [added]) :=
          List.perm_append_comm
        simpa using swapped.append_left head
      · simpa using ih.append_left head

theorem flatten_foldl_addAlias_perm (aliases : List Declaration)
    (groups : List (List Declaration)) :
    (aliases.foldl (fun groups added => addAlias added groups) groups).flatten.Perm
      (groups.flatten ++ aliases) := by
  induction aliases generalizing groups with
  | nil => simp
  | cons added aliases ih =>
      rw [List.foldl_cons]
      have step := (flatten_addAlias_perm added groups).append_right aliases
      exact (ih (addAlias added groups)).trans (by simpa using step)

/-- The members of the groups of some siblings are siblings up to renaming. -/
theorem exists_sibling_of_perm {siblings group : List Declaration}
    {groups : List (List Declaration)}
    (perm : (groups.flatten.map unrenamed).Perm (siblings.map unrenamed))
    (isGroup : group ∈ groups) {declaration : Declaration} (member : declaration ∈ group) :
    ∃ sibling ∈ siblings, sibling.unrenamed = declaration.unrenamed := by
  have inGroups : declaration ∈ groups.flatten := List.mem_flatten.mpr ⟨group, isGroup, member⟩
  exact List.mem_map.mp (perm.mem_iff.mp (List.mem_map_of_mem inGroups))

end Declaration

namespace Arrangement

open Declaration

variable (arrangement : Arrangement)

/-- The groups of siblings hold every sibling once, up to renaming. -/
theorem flatten_groups_perm (siblings : List Declaration) :
    ((arrangement.groups siblings).flatten.map unrenamed).Perm (siblings.map unrenamed) := by
  rw [groups]
  split
  · exact (flatten_groupByFirstSeen_perm _ siblings).map unrenamed
  · rw [← List.flatMap_def, List.flatMap_singleton']
    exact renameClashing_perm arrangement.registry siblings

/-- Siblings whose identities differ even without the extra mark are in groups of their own. -/
theorem groups_eq_singletons {siblings : List Declaration}
    (apart : (siblings.map fun sibling => sibling.dri.withoutExtra).Nodup) :
    arrangement.groups siblings = siblings.map fun sibling => [sibling] := by
  rw [groups]
  split
  · have different : (siblings.map dri).Nodup :=
      .of_map Dri.withoutExtra (by rwa [List.map_map])
    exact groupByFirstSeen_eq_singletons different
  · rw [renameClashing_eq_self _ apart]

/-- The groups of types hold every type once, up to renaming. -/
theorem flatten_typeGroups_perm (types : List Declaration) :
    ((arrangement.typeGroups types).flatten.map unrenamed).Perm (types.map unrenamed) := by
  have added := (flatten_foldl_addAlias_perm (types.filter (isActualAlias types))
    (arrangement.groups (standaloneTypes types))).map unrenamed
  have standalone := (arrangement.flatten_groups_perm (standaloneTypes types)).append_right
    ((types.filter (isActualAlias types)).map unrenamed)
  have split : (standaloneTypes types ++ types.filter (isActualAlias types)).Perm types := by
    simpa [standaloneTypes] using
      List.filter_append_perm (fun type => !isActualAlias types type) types
  rw [List.map_append] at added
  exact added.trans (standalone.trans (by simpa using split.map unrenamed))

/-- The siblings of a group have one identity. -/
theorem haveDri_of_mem_groups {siblings group : List Declaration}
    (isGroup : group ∈ arrangement.groups siblings) : ∃ dri, HaveDri dri group := by
  rw [groups] at isGroup
  split at isGroup
  · exact haveDri_of_mem_mergeClashing isGroup
  · obtain ⟨sibling, -, rfl⟩ := List.mem_map.mp isGroup
    exact ⟨sibling.dri, haveDri_singleton sibling⟩

/-- The types of a group have one identity. -/
theorem haveDri_of_mem_typeGroups {types group : List Declaration}
    (isGroup : group ∈ arrangement.typeGroups types) : ∃ dri, HaveDri dri group := by
  have run : ∀ (aliases : List Declaration) (groups : List (List Declaration)),
      (∀ group ∈ groups, ∃ dri, HaveDri dri group) →
        ∀ group ∈ aliases.foldl (fun groups added => addAlias added groups) groups,
          ∃ dri, HaveDri dri group := by
    intro aliases
    induction aliases with
    | nil => exact fun groups uniform => uniform
    | cons added aliases ih =>
        exact fun groups uniform => ih (addAlias added groups) (haveDri_of_mem_addAlias uniform)
  exact run _ _ (fun group => arrangement.haveDri_of_mem_groups) group isGroup

/-- The members of a group are among the siblings, up to renaming. -/
theorem exists_sibling_of_mem_groups {siblings group : List Declaration}
    (isGroup : group ∈ arrangement.groups siblings) {declaration : Declaration}
    (member : declaration ∈ group) :
    ∃ sibling ∈ siblings, sibling.unrenamed = declaration.unrenamed :=
  exists_sibling_of_perm (arrangement.flatten_groups_perm siblings) isGroup member

/-- The members of a group of types are among the types, up to renaming. -/
theorem exists_sibling_of_mem_typeGroups {types group : List Declaration}
    (isGroup : group ∈ arrangement.typeGroups types) {declaration : Declaration}
    (member : declaration ∈ group) :
    ∃ type ∈ types, type.unrenamed = declaration.unrenamed :=
  exists_sibling_of_perm (arrangement.flatten_typeGroups_perm types) isGroup member

end Arrangement

end DocPages
