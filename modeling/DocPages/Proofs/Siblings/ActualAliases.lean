import DocPages.Proofs.Siblings.PageGroups

/-!
# Type aliases that implement classes

A type alias that implements a class joins the first group that holds a class of its identity. The
groups of an identity can be followed apart from all others, as no other type alias joins them, and
the first of them gets all the type aliases. If siblings are merged there is only one. If not, the
first one has the class that comes first, which need not be the one that others implement.
-/

namespace DocPages

namespace Declaration

/-- The declaration is a class that others implement. -/
def isExpected (declaration : Declaration) : Bool :=
  (declaration.classlike?.bind ClasslikeDecl.expectPresentIn).isSome

@[simp]
theorem isExpected_unrenamed (declaration : Declaration) :
    declaration.unrenamed.isExpected = declaration.isExpected := by
  cases declaration <;> rfl

section

variable (registry : Registry) (siblings : List Declaration) (sibling : Declaration)

private theorem isClasslike_renamedAmong :
    (renamedAmong registry siblings sibling).isClasslike = sibling.isClasslike := by
  rw [← isClasslike_unrenamed, (isRenamed_renamedAmong registry siblings sibling).unrenamed,
    isClasslike_unrenamed]

private theorem isExpected_renamedAmong :
    (renamedAmong registry siblings sibling).isExpected = sibling.isExpected := by
  rw [← isExpected_unrenamed, (isRenamed_renamedAmong registry siblings sibling).unrenamed,
    isExpected_unrenamed]

end

/-- The declarations of an identity. -/
def ofDri (dri : Dri) (declarations : List Declaration) : List Declaration :=
  declarations.filter fun declaration => declaration.dri = dri

/-- The groups with a declaration of an identity. -/
def groupsOf (dri : Dri) (groups : List (List Declaration)) : List (List Declaration) :=
  groups.filter fun group => group.any fun declaration => declaration.dri = dri

variable {dri : Dri} {added : Declaration} {groups : List (List Declaration)}

/-- A group of one identity is among the groups of that identity and of no other. -/
private theorem groupsOf_cons {own : Dri} {group : List Declaration} (uniform : HaveDri own group)
    (dri : Dri) (groups : List (List Declaration)) :
    groupsOf dri (group :: groups) =
      if own = dri then group :: groupsOf dri groups else groupsOf dri groups := by
  obtain ⟨first, rest, rfl⟩ := List.exists_cons_of_ne_nil uniform.nonempty
  have isOf : ((first :: rest).any fun declaration => declaration.dri = dri) =
      decide (own = dri) := by
    rw [Bool.eq_iff_iff, List.any_eq_true]
    constructor
    · rintro ⟨declaration, member, sameDri⟩
      have isOwn := uniform.same declaration member
      simpa [isOwn] using sameDri
    · intro sameDri
      have isOwn := uniform.same first List.mem_cons_self
      exact ⟨first, List.mem_cons_self, by simpa [isOwn] using sameDri⟩
  rw [groupsOf, List.filter_cons, isOf, groupsOf]
  simp only [decide_eq_true_eq]

/-- A type alias touches the groups of its own identity only. -/
theorem groupsOf_addAlias (uniform : ∀ group ∈ groups, ∃ dri, HaveDri dri group) :
    groupsOf dri (addAlias added groups) =
      if added.dri = dri then addAlias added (groupsOf dri groups) else groupsOf dri groups := by
  induction groups with
  | nil => by_cases same : added.dri = dri <;> simp [groupsOf, addAlias, same]
  | cons head tail ih =>
      obtain ⟨⟨own, headUniform⟩, tailUniform⟩ := List.forall_mem_cons.mp uniform
      rw [addAlias, groupsOf_cons headUniform]
      split
      · rename_i joins
        obtain ⟨type, inHead, -, sameDri⟩ : ∃ type ∈ head,
            type.isClasslike = true ∧ type.dri = added.dri := by simpa using joins
        obtain rfl : own = added.dri := (headUniform.same type inHead).symm.trans sameDri
        rw [groupsOf_cons (headUniform.append ⟨type, inHead, sameDri⟩)]
        by_cases same : added.dri = dri
        · rw [if_pos same, if_pos same, if_pos same, addAlias, if_pos joins]
        · rw [if_neg same, if_neg same, if_neg same]
      · rename_i apart
        rw [groupsOf_cons headUniform, ih tailUniform]
        by_cases isOf : own = dri
        · rw [if_pos isOf, if_pos isOf, addAlias, if_neg apart]
          split <;> rfl
        · rw [if_neg isOf, if_neg isOf]

/-- Type aliases of an identity follow each other to the group of a class of that identity. -/
theorem foldl_addAlias_cons {aliases first : List Declaration} {rest : List (List Declaration)}
    (joins : ∃ type ∈ first, type.isClasslike ∧ type.dri = dri)
    (same : ∀ added ∈ aliases, added.dri = dri) :
    aliases.foldl (fun groups added => addAlias added groups) (first :: rest) =
      (first ++ aliases) :: rest := by
  induction aliases generalizing first with
  | nil => rw [List.append_nil, List.foldl_nil]
  | cons added aliases ih =>
      obtain ⟨type, member, isClass, sameDri⟩ := joins
      obtain ⟨rfl, sameAliases⟩ := List.forall_mem_cons.mp same
      have joined : addAlias added (first :: rest) = (first ++ [added]) :: rest := by
        rw [addAlias, if_pos (List.any_eq_true.mpr ⟨type, member, by simp [isClass, sameDri]⟩)]
      rw [List.foldl_cons, joined,
        ih ⟨type, List.mem_append_left _ member, isClass, sameDri⟩ sameAliases, List.append_assoc]
      rfl

theorem groupsOf_foldl_addAlias (uniform : ∀ group ∈ groups, ∃ dri, HaveDri dri group)
    (aliases : List Declaration) :
    groupsOf dri (aliases.foldl (fun groups added => addAlias added groups) groups) =
      (ofDri dri aliases).foldl (fun groups added => addAlias added groups)
        (groupsOf dri groups) := by
  induction aliases generalizing groups with
  | nil => rfl
  | cons added aliases ih =>
      rw [List.foldl_cons, ih (haveDri_of_mem_addAlias uniform), groupsOf_addAlias uniform, ofDri,
        ofDri, List.filter_cons]
      by_cases same : added.dri = dri <;> simp [same]

/-- A declaration is only in groups of its own identity. -/
theorem filter_mem_groupsOf (declaration : Declaration) (groups : List (List Declaration)) :
    (groupsOf declaration.dri groups).filter (declaration ∈ ·) =
      groups.filter (declaration ∈ ·) := by
  rw [groupsOf, List.filter_filter]
  refine List.filter_congr fun group _ => ?_
  rw [Bool.eq_iff_iff, Bool.and_eq_true, List.any_eq_true]
  refine ⟨And.left, fun member => ⟨member, declaration, ?_⟩⟩
  simpa using member

/-! ## Types beside a class that others implement -/

section

variable {types : List Declaration} {expected : Declaration} (isType : expected ∈ types)
  (present : expected.isExpected)

include present

private theorem isClasslike_of_isExpected : expected.isClasslike := by
  cases expected with
  | classlike => rfl
  | module | package | typeAlias | function | property | enumEntry => cases present

include isType

/-- Of the types that share the identity of a class that others implement, the type aliases do not
stand alone. -/
private theorem isActualAlias_eq {type : Declaration} (sameDri : type.dri = expected.dri) :
    isActualAlias types type = type.isTypeAlias := by
  have known : (expectedDris types).contains type.dri := by
    rw [sameDri]
    refine List.any_eq_true.mpr ⟨expected.dri, OrderedSet.mem_ofList.mpr ?_, ?_⟩
    · refine List.mem_filterMap.mpr ⟨expected, isType, ?_⟩
      obtain ⟨source, isPresent⟩ := Option.isSome_iff_exists.mp present
      rw [isPresent]
      rfl
    · rw [beq_iff_eq]
      exact Std.ReflCmp.compare_self
  rw [isActualAlias, known, Bool.and_true]

private theorem ofDri_actualAliases :
    ofDri expected.dri (types.filter (isActualAlias types)) =
      (ofDri expected.dri types).filter isTypeAlias := by
  rw [ofDri, ofDri, List.filter_filter, List.filter_filter]
  refine List.filter_congr fun type _ => ?_
  by_cases sameDri : type.dri = expected.dri
  · simp [sameDri, isActualAlias_eq isType present sameDri]
  · simp [sameDri]

private theorem ofDri_standaloneTypes
    (proper : ∀ type ∈ types, type.isClasslike ∨ type.isTypeAlias) :
    ofDri expected.dri (standaloneTypes types) = (ofDri expected.dri types).filter isClasslike := by
  rw [ofDri, ofDri, standaloneTypes, List.filter_filter, List.filter_filter]
  refine List.filter_congr fun type member => ?_
  by_cases sameDri : type.dri = expected.dri
  · have kinds := proper type member
    simp only [sameDri, isActualAlias_eq isType present sameDri, decide_true, Bool.true_and,
      Bool.and_true]
    cases type <;> simp_all [isClasslike, isTypeAlias]
  · simp [sameDri]

end

end Declaration

namespace Arrangement

open Declaration

variable (arrangement : Arrangement) {dri : Dri}

/-- Siblings of one identity share a group, or each has one of its own in the order of the
siblings. -/
theorem groupsOf_groups {siblings same : List Declaration} (notEmpty : same ≠ [])
    (isSame : ofDri dri siblings = same) :
    groupsOf dri (arrangement.groups siblings) =
      if arrangement.settings.mergeVariants then [same]
      else same.map fun sibling => [renamedAmong arrangement.registry siblings sibling] := by
  subst isSame
  rw [groups]
  split
  · obtain ⟨sibling, member⟩ := List.exists_mem_of_ne_nil _ notEmpty
    obtain ⟨isSibling, sameDri⟩ := List.mem_filter.mp member
    exact filter_groupByFirstSeen (List.mem_map.mpr ⟨sibling, isSibling, by simpa using sameDri⟩)
  · have single : ∀ sibling : Declaration,
        ((fun group => group.any fun declaration => decide (declaration.dri = dri)) ∘
          fun sibling => [sibling]) sibling = decide (sibling.dri = dri) := by
      simp
    have ofKey : ∀ sibling : Declaration, decide (sibling.dri = dri) →
        sibling.dri.withoutExtra = dri.withoutExtra := fun sibling isOf =>
      congrArg Dri.withoutExtra (by simpa using isOf)
    rw [groupsOf, List.filter_map, List.filter_congr fun sibling _ => single sibling,
      renameClashing_eq, List.filter_map, List.map_map]
    simp only [Function.comp_def, dri_renamedAmong]
    rw [clashGroups, filter_flatten_groupByFirstSeen ofKey]
    rfl

/-- The type aliases with the identity of a class that others implement follow the classes of the
first group of that identity. These are all classes of the identity if siblings are merged, and the
first one if they are not. -/
private theorem exists_classes_before_aliases {types : List Declaration} {expected : Declaration}
    (proper : ∀ type ∈ types, type.isClasslike ∨ type.isTypeAlias) (isType : expected ∈ types)
    (present : expected.isExpected) :
    ∃ first rest,
      groupsOf expected.dri (arrangement.typeGroups types) =
        (first ++ (ofDri expected.dri types).filter isTypeAlias) :: rest ∧
      (∃ type ∈ first, type.dri = expected.dri) ∧
      (∀ group ∈ first :: rest, ∀ type ∈ group, type.isClasslike) ∧
      ((∃ type ∈ first, type.isExpected) ↔ arrangement.settings.mergeVariants ∨
        ((ofDri expected.dri types).find? isClasslike).any isExpected) := by
  let classes := (ofDri expected.dri types).filter isClasslike
  have isExpectedClass : expected ∈ classes := by
    have ofOwnDri : expected ∈ ofDri expected.dri types :=
      List.mem_filter.mpr ⟨isType, by simp⟩
    exact List.mem_filter.mpr ⟨ofOwnDri, isClasslike_of_isExpected present⟩
  have areClasses : ∀ type ∈ classes, type.isClasslike ∧ type.dri = expected.dri := by
    intro type member
    obtain ⟨ofDri, isClass⟩ := List.mem_filter.mp member
    exact ⟨isClass, by simpa using (List.mem_filter.mp ofDri).2⟩
  have sameAliases : ∀ added ∈ (ofDri expected.dri types).filter isTypeAlias,
      added.dri = expected.dri := by
    intro added member
    simpa using (List.mem_filter.mp (List.mem_filter.mp member).1).2
  have standalone := ofDri_standaloneTypes isType present proper
  rw [typeGroups, groupsOf_foldl_addAlias fun group => arrangement.haveDri_of_mem_groups,
    ofDri_actualAliases isType present,
    arrangement.groupsOf_groups (List.ne_nil_of_mem isExpectedClass) standalone]
  by_cases merges : arrangement.settings.mergeVariants
  · rw [if_pos merges, foldl_addAlias_cons
      ⟨expected, isExpectedClass, areClasses expected isExpectedClass⟩ sameAliases]
    refine ⟨classes, [], rfl, ⟨expected, isExpectedClass, rfl⟩, ?_, ?_⟩
    · exact List.forall_mem_singleton.mpr fun type member => (areClasses type member).1
    · exact iff_of_true ⟨expected, isExpectedClass, present⟩ (.inl merges)
  · obtain ⟨head, tail, split⟩ := List.exists_cons_of_ne_nil (List.ne_nil_of_mem isExpectedClass)
    let renamed := renamedAmong arrangement.registry (standaloneTypes types)
    have areRenamed : ∀ type ∈ classes,
        (renamed type).isClasslike ∧ (renamed type).dri = expected.dri := by
      intro type member
      rw [isClasslike_renamedAmong, dri_renamedAmong]
      exact areClasses type member
    have headMember : head ∈ classes := split ▸ List.mem_cons_self
    have first : (ofDri expected.dri types).find? isClasslike = some head := by
      rw [← List.head?_filter]
      exact congrArg List.head? split
    rw [if_neg merges]
    change ∃ _ _, List.foldl _ (classes.map fun type => [renamed type]) _ = _ ∧ _
    rw [show classes = head :: tail from split, List.map_cons, foldl_addAlias_cons
      ⟨renamed head, List.mem_cons_self, areRenamed head headMember⟩ sameAliases]
    refine ⟨[renamed head], _, rfl, ⟨renamed head, List.mem_cons_self, ?_⟩, ?_, ?_⟩
    · exact (areRenamed head headMember).2
    · rw [← List.map_cons (f := fun type => [renamed type]), ← split]
      intro group member
      obtain ⟨type, isClass, rfl⟩ := List.mem_map.mp member
      exact List.forall_mem_singleton.mpr (areRenamed type isClass).1
    · rw [first, Option.any_some, or_iff_right merges]
      simp [renamed, isExpected_renamedAmong]

/-- All type aliases with the identity of a class that others implement are in one group, which has
a class. A class that others implement is in this group too if siblings are merged. If they are not,
it is only if the first class of the identity is one. -/
theorem exists_groupsOf_typeGroups {types : List Declaration} {expected : Declaration}
    (proper : ∀ type ∈ types, type.isClasslike ∨ type.isTypeAlias) (isType : expected ∈ types)
    (present : expected.isExpected) :
    ∃ group rest,
      groupsOf expected.dri (arrangement.typeGroups types) = group :: rest ∧
      group.filter isTypeAlias = (ofDri expected.dri types).filter isTypeAlias ∧
      (∀ other ∈ rest, ∀ type ∈ other, type.isTypeAlias = false) ∧
      (∃ type ∈ group, type.isClasslike) ∧
      ((∃ type ∈ group, type.isExpected) ↔ arrangement.settings.mergeVariants ∨
        ((ofDri expected.dri types).find? isClasslike).any isExpected) := by
  obtain ⟨classes, rest, groups, ⟨type, inClasses, -⟩, areClasses, expectation⟩ :=
    arrangement.exists_classes_before_aliases proper isType present
  obtain ⟨areClasses, restAreClasses⟩ := List.forall_mem_cons.mp areClasses
  have noAlias : ∀ type : Declaration, type.isClasslike → type.isTypeAlias = false := by
    intro type isClass
    cases type <;> first | rfl | cases isClass
  have notExpected : ∀ type : Declaration, type.isTypeAlias → type.isExpected = false := by
    intro type isAlias
    cases type <;> first | rfl | cases isAlias
  refine ⟨_, rest, groups, ?_, fun other isRest type member => ?_, ?_, ?_⟩
  · have noneInClasses : classes.filter isTypeAlias = [] :=
      List.filter_eq_nil_iff.mpr fun type member => by simp [noAlias type (areClasses type member)]
    rw [List.filter_append, noneInClasses, List.nil_append, List.filter_filter]
    simp
  · exact noAlias type (restAreClasses other isRest type member)
  · exact ⟨type, List.mem_append_left _ inClasses, areClasses type inClasses⟩
  · rw [← expectation]
    refine ⟨fun ⟨type, member, isExpected⟩ => ⟨type, ?_, isExpected⟩,
      fun ⟨type, member, isExpected⟩ => ⟨type, List.mem_append_left _ member, isExpected⟩⟩
    refine (List.mem_append.mp member).resolve_right fun isAlias => ?_
    rw [notExpected type (List.mem_filter.mp isAlias).2] at isExpected
    cases isExpected

/-- A type alias with the identity of a class that others implement is in one group, as often as
among the types, and this is the group of `exists_groupsOf_typeGroups`. -/
theorem exists_filter_typeGroups {types : List Declaration} {expected added : Declaration}
    (proper : ∀ type ∈ types, type.isClasslike ∨ type.isTypeAlias) (isType : expected ∈ types)
    (present : expected.isExpected) (isAdded : added ∈ types) (isAlias : added.isTypeAlias)
    (sameDri : added.dri = expected.dri) :
    ∃ group,
      (arrangement.typeGroups types).filter (added ∈ ·) = [group] ∧
      group.count added = types.count added ∧
      (∀ type ∈ group, type.dri = added.dri) ∧
      (∃ type ∈ group, type.isClasslike) ∧
      ((∃ type ∈ group, type.isExpected) ↔ arrangement.settings.mergeVariants ∨
        ((ofDri added.dri types).find? isClasslike).any isExpected) := by
  obtain ⟨group, rest, groups, aliases, noneElse, hasClass, expectation⟩ :=
    arrangement.exists_groupsOf_typeGroups proper isType present
  rw [← sameDri] at groups aliases expectation
  have joined : added ∈ group := by
    have inAliases : added ∈ group.filter isTypeAlias :=
      aliases ▸ List.mem_filter.mpr ⟨List.mem_filter.mpr ⟨isAdded, by simp⟩, isAlias⟩
    exact (List.mem_filter.mp inAliases).1
  have notInRest : rest.filter (added ∈ ·) = [] :=
    List.filter_eq_nil_iff.mpr fun other isRest member => by
      have notAlias := noneElse other isRest added (by simpa using member)
      rw [isAlias] at notAlias
      cases notAlias
  refine ⟨group, ?_, ?_, ?_, hasClass, expectation⟩
  · rw [← filter_mem_groupsOf, groups, List.filter_cons_of_pos (by simpa using joined), notInRest]
  · rw [← List.count_filter (p := isTypeAlias) isAlias, aliases, List.count_filter isAlias, ofDri,
      List.count_filter (by simp)]
  · have isGroup : group ∈ groupsOf added.dri (arrangement.typeGroups types) :=
      groups ▸ List.mem_cons_self
    obtain ⟨dri, uniform⟩ := arrangement.haveDri_of_mem_typeGroups (List.mem_filter.mp isGroup).1
    exact fun type member => (uniform.same type member).trans (uniform.same added joined).symm

end Arrangement

end DocPages
