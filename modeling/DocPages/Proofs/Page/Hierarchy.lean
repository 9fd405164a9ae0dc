import DocPages.Page.Plan
import DocPages.Proofs.Siblings.PageGroups

/-!
# The hierarchy of pages

What stands directly below a page, case by case, and what holds of it. Types are nested less deep
below a page than on it, so the plan of a page unfolds completely, and what holds of a page whenever
it holds of the pages directly below it holds of every page.
-/

namespace DocPages

open Declaration

namespace Subject

/-- The declarations of a page whose members have pages below it. -/
def holders : Subject → List Declaration
  | .package decl => [.package decl]
  | .classlikes group => group.filter isClasslike
  | .enumEntries group => group.filter isEnumEntry
  | .module _ | .allTypes _ | .members _ => []

/-- The constructors that have pages below a page. -/
def constructors : Subject → List Declaration
  | .classlikes group => shownConstructors group
  | _ => []

/-- Groups of types hold types, and groups of entries hold entries. -/
def IsProper : Subject → Prop
  | .classlikes group => ∀ declaration ∈ group, declaration.isClasslike ∨ declaration.isTypeAlias
  | .enumEntries group => ∀ declaration ∈ group, declaration.isEnumEntry
  | _ => True

/-- All declarations of a page have the identity of the page. -/
structure HasDri (subject : Subject) (dri : Dri) : Prop where
  dris : subject.dris.toList = [dri]
  declarations : ∀ declaration ∈ subject.declarations, declaration.dri = dri

/-- A page whose declarations have one identity has no problem. -/
theorem HasDri.problems_eq_nil {subject : Subject} {dri : Dri} (hasDri : subject.HasDri dri) :
    subject.problems = [] := by
  have single : subject.dris.size = 1 := congrArg List.length hasDri.dris
  rw [problems]
  split
  · simp [single]
  · rfl

/-- The page of a module has the identity of the module. -/
theorem hasDri_module (decl : ModuleDecl) : (Subject.module decl).HasDri .root :=
  ⟨rfl, by simp [declarations, dri, common?]⟩

end Subject

namespace Arrangement

variable (arrangement : Arrangement)

/-- Why a page stands directly below another. -/
inductive Places : Subject → Subject → Prop
  | package {decl : ModuleDecl} {package : PackageDecl} (member : package ∈ decl.packages) :
      Places (.module decl) (.package package)
  | allTypes {decl : ModuleDecl} (listed : arrangement.listsAllTypes decl) :
      Places (.module decl) (.allTypes decl)
  | constructor {subject : Subject} {constructor : Declaration}
      (member : constructor ∈ subject.constructors) : Places subject (.members [constructor])
  | types {subject : Subject} {group : List Declaration}
      (isGroup : group ∈ arrangement.typeGroups (subject.holders.flatMap memberTypes)) :
      Places subject (.classlikes group)
  | functions {subject : Subject} {group : List Declaration}
      (isGroup : group ∈ arrangement.groups
        ((subject.holders.flatMap memberFunctions).filter (!·.isInherited))) :
      Places subject (.members group)
  | properties {subject : Subject} {group : List Declaration}
      (isGroup : group ∈ arrangement.groups
        ((subject.holders.flatMap memberProperties).filter (!·.isInherited))) :
      Places subject (.members group)
  | entries {subject : Subject} {group : List Declaration}
      (isGroup : group ∈ arrangement.groups (subject.holders.flatMap enumEntries)) :
      Places subject (.enumEntries group)

/-- The pages of the members of a page. -/
def memberPages (subject : Subject) : List Subject :=
  subject.constructors.map (fun constructor => .members [constructor]) ++
    arrangement.scopeSubjects (.ofDeclarations subject.holders) ++
      (arrangement.groups (subject.holders.flatMap enumEntries)).map .enumEntries

private theorem groups_nil : arrangement.groups [] = [] := by
  rw [groups]
  split <;> rfl

private theorem scopeSubjects_ofDeclarations_nil :
    arrangement.scopeSubjects (.ofDeclarations []) = [] := by
  have noGroups := arrangement.groups_nil
  simp [scopeSubjects, Members.ofDeclarations, typeGroups, standaloneTypes, memberSubjects,
    noGroups]

/-- Below a module stand its packages and the page of all types, below any other page those of its
members. -/
theorem below_eq (subject : Subject) :
    arrangement.below subject =
      match subject with
      | .module decl =>
        decl.packages.map .package ++
          if arrangement.listsAllTypes decl then [.allTypes decl] else []
      | other => arrangement.memberPages other := by
  have noGroups := arrangement.groups_nil
  have noScope := arrangement.scopeSubjects_ofDeclarations_nil
  cases subject with
  | module decl | classlikes group => rfl
  | allTypes decl | members group =>
      simp [below, memberPages, Subject.constructors, Subject.holders, noGroups, noScope]
  | package decl =>
      simp [below, memberPages, Subject.constructors, Subject.holders, enumEntries, noGroups]
  | enumEntries group =>
      have noEntries : (group.filter isEnumEntry).flatMap Declaration.enumEntries = [] := by
        rw [List.flatMap_eq_nil_iff]
        intro declaration member
        cases declaration <;> simp_all [isEnumEntry, Declaration.enumEntries]
      simp [below, memberPages, Subject.constructors, Subject.holders, noEntries, noGroups]

theorem places_of_mem_memberPages {subject placed : Subject}
    (member : placed ∈ arrangement.memberPages subject) : arrangement.Places subject placed := by
  simp only [memberPages, scopeSubjects, memberSubjects, Members.ofDeclarations, List.mem_append,
    List.mem_map] at member
  rcases member with (⟨constructor, isConstructor, rfl⟩ |
    ((⟨group, isGroup, rfl⟩ | ⟨group, isGroup, rfl⟩) | ⟨group, isGroup, rfl⟩)) |
    ⟨group, isGroup, rfl⟩
  · exact .constructor isConstructor
  · exact .types isGroup
  · exact .functions isGroup
  · exact .properties isGroup
  · exact .entries isGroup

/-- Every page below another stands there for one of the reasons. -/
theorem places_of_mem_below {subject placed : Subject}
    (member : placed ∈ arrangement.below subject) : arrangement.Places subject placed := by
  rw [below_eq] at member
  split at member
  · rename_i decl
    rcases List.mem_append.mp member with isPackage | isListing
    · obtain ⟨package, inModule, rfl⟩ := List.mem_map.mp isPackage
      exact .package inModule
    · split at isListing
      · rename_i listed
        obtain rfl := List.mem_singleton.mp isListing
        exact .allTypes listed
      · simp at isListing
  · exact arrangement.places_of_mem_memberPages member

/-! ## Kinds and identities -/

/-- Pages below another are proper. -/
theorem isProper_of_places {subject placed : Subject} (places : arrangement.Places subject placed) :
    placed.IsProper := by
  cases places with
  | package | allTypes | constructor | functions | properties => trivial
  | types isGroup =>
      intro declaration member
      obtain ⟨type, isType, same⟩ := arrangement.exists_sibling_of_mem_typeGroups isGroup member
      obtain ⟨holder, -, inHolder⟩ := List.mem_flatMap.mp isType
      have kind := isClasslike_or_isTypeAlias_of_mem_memberTypes inHolder
      rwa [← isClasslike_unrenamed, ← isTypeAlias_unrenamed, same, isClasslike_unrenamed,
        isTypeAlias_unrenamed] at kind
  | entries isGroup =>
      intro declaration member
      obtain ⟨entry, isEntry, same⟩ := arrangement.exists_sibling_of_mem_groups isGroup member
      obtain ⟨holder, -, inHolder⟩ := List.mem_flatMap.mp isEntry
      have kind := isEnumEntry_of_mem_enumEntries inHolder
      rwa [← isEnumEntry_unrenamed, same, isEnumEntry_unrenamed] at kind

/-- The declarations of a page below another have the identity of the page. -/
theorem hasDri_of_places {subject placed : Subject} (places : arrangement.Places subject placed) :
    ∃ dri, placed.HasDri dri := by
  cases places with
  | @package decl package member =>
      exact ⟨package.common.dri, rfl, by simp [Subject.declarations, dri, common?]⟩
  | allTypes listed => exact ⟨.allTypes, rfl, by simp [Subject.declarations]⟩
  | @constructor subject constructor member =>
      have uniform := haveDri_singleton constructor
      exact ⟨constructor.dri, uniform.toList_drisOf, uniform.same⟩
  | types isGroup =>
      obtain ⟨dri, uniform⟩ := arrangement.haveDri_of_mem_typeGroups isGroup
      exact ⟨dri, uniform.toList_drisOf, uniform.same⟩
  | functions isGroup | properties isGroup | entries isGroup =>
      obtain ⟨dri, uniform⟩ := arrangement.haveDri_of_mem_groups isGroup
      exact ⟨dri, uniform.toList_drisOf, uniform.same⟩

/-! ## Depth -/

private theorem deepestNesting_lt {group : List Declaration} {bound : Nat} (positive : 0 < bound)
    (below : ∀ declaration ∈ group, declaration.nesting < bound) :
    deepestNesting group < bound := by
  have atMost : deepestNesting group ≤ bound - 1 :=
    deepestNesting_le.mpr fun declaration member => by
      have := below declaration member
      omega
  omega

private theorem holds_members {subject : Subject} {holder : Declaration}
    (member : holder ∈ subject.holders) :
    (∃ decl, subject = .package decl ∧ holder = .package decl) ∨
      (holder.isClasslike ∨ holder.isEnumEntry) ∧ holder.nesting ≤ subject.levels := by
  cases subject with
  | package decl => exact .inl ⟨decl, rfl, List.mem_singleton.mp member⟩
  | classlikes group =>
      obtain ⟨inGroup, isClass⟩ := List.mem_filter.mp member
      exact .inr ⟨.inl isClass, nesting_le_deepestNesting inGroup⟩
  | enumEntries group =>
      obtain ⟨inGroup, isEntry⟩ := List.mem_filter.mp member
      exact .inr ⟨.inr isEntry, nesting_le_deepestNesting inGroup⟩
  | module | allTypes | members => simp [Subject.holders] at member

private theorem levels_pos_of_mem_holders {subject : Subject} {holder : Declaration}
    (member : holder ∈ subject.holders) : 0 < subject.levels := by
  rcases holds_members member with ⟨decl, rfl, -⟩ | ⟨holds, bound⟩
  · exact Nat.succ_pos _
  · exact Nat.lt_of_lt_of_le (nesting_pos holds) bound

private theorem nesting_lt_levels_of_mem_memberTypes {subject : Subject} {type : Declaration}
    (member : type ∈ subject.holders.flatMap memberTypes) : type.nesting < subject.levels := by
  obtain ⟨holder, isHolder, isType⟩ := List.mem_flatMap.mp member
  rcases holds_members isHolder with ⟨decl, rfl, rfl⟩ | ⟨holds, bound⟩
  · exact Nat.lt_succ_of_le (nesting_le_of_mem_package isType)
  · exact Nat.lt_of_lt_of_le (nesting_lt_of_mem_memberTypes holds isType) bound

private theorem nesting_lt_levels_of_mem_enumEntries {subject : Subject} {entry : Declaration}
    (member : entry ∈ subject.holders.flatMap enumEntries) : entry.nesting < subject.levels := by
  obtain ⟨holder, isHolder, isEntry⟩ := List.mem_flatMap.mp member
  rcases holds_members isHolder with ⟨decl, rfl, rfl⟩ | ⟨-, bound⟩
  · simp [enumEntries] at isEntry
  · exact Nat.lt_of_lt_of_le (nesting_lt_of_mem_enumEntries isEntry) bound

private theorem levels_pos_of_mem_constructors {subject : Subject} {constructor : Declaration}
    (member : constructor ∈ subject.constructors) : 0 < subject.levels := by
  cases subject with
  | classlikes group =>
      have nonempty : group.filterMap classlike? ≠ [] := by
        intro empty
        simp [Subject.constructors, shownConstructors, empty] at member
      obtain ⟨decl, isClass⟩ := List.exists_mem_of_ne_nil _ nonempty
      obtain ⟨declaration, inGroup, equality⟩ := List.mem_filterMap.mp isClass
      have holds : declaration.isClasslike := by
        cases declaration <;> simp_all [classlike?, isClasslike]
      exact Nat.lt_of_lt_of_le (nesting_pos (.inl holds)) (nesting_le_deepestNesting inGroup)
  | module | allTypes | package | enumEntries | members =>
      simp [Subject.constructors] at member

private theorem levels_pos_of_mem_groups {subject : Subject}
    {members : Declaration → List Declaration} {group : List Declaration}
    (isGroup : group ∈ arrangement.groups
      ((subject.holders.flatMap members).filter (!·.isInherited))) : 0 < subject.levels := by
  obtain ⟨dri, uniform⟩ := arrangement.haveDri_of_mem_groups isGroup
  obtain ⟨declaration, inGroup⟩ := List.exists_mem_of_ne_nil _ uniform.nonempty
  obtain ⟨sibling, isMember, -⟩ := arrangement.exists_sibling_of_mem_groups isGroup inGroup
  obtain ⟨holder, isHolder, -⟩ := List.mem_flatMap.mp (List.mem_filter.mp isMember).1
  exact levels_pos_of_mem_holders isHolder

private theorem nesting_le_deepest_package {packages : List PackageDecl} {package : PackageDecl}
    (member : package ∈ packages) :
    (Declaration.package package).nesting ≤
      packages.foldr (fun package deepest =>
        max (Declaration.package package).nesting deepest) 0 := by
  induction packages with
  | nil => simp at member
  | cons head tail ih =>
      rw [List.foldr_cons]
      rcases List.mem_cons.mp member with rfl | inTail
      · omega
      · have tailBound := ih inTail
        omega

private theorem levels_package_lt {decl : ModuleDecl} {package : PackageDecl}
    (member : package ∈ decl.packages) :
    (Subject.package package).levels < (Subject.module decl).levels := by
  have bound := nesting_le_deepest_package member
  simp only [Subject.levels]
  omega

/-- A page below another is less deep. -/
theorem levels_lt_of_places {subject placed : Subject}
    (places : arrangement.Places subject placed) : placed.levels < subject.levels := by
  cases places with
  | package member => exact levels_package_lt member
  | allTypes listed => exact Nat.succ_pos _
  | constructor member => exact levels_pos_of_mem_constructors member
  | functions isGroup | properties isGroup => exact arrangement.levels_pos_of_mem_groups isGroup
  | @types subject group isGroup =>
      have bound : ∀ declaration ∈ group, declaration.nesting < subject.levels := by
        intro declaration member
        obtain ⟨type, isType, same⟩ := arrangement.exists_sibling_of_mem_typeGroups isGroup member
        rw [← nesting_unrenamed, ← same, nesting_unrenamed]
        exact nesting_lt_levels_of_mem_memberTypes isType
      obtain ⟨dri, uniform⟩ := arrangement.haveDri_of_mem_typeGroups isGroup
      obtain ⟨first, inGroup⟩ := List.exists_mem_of_ne_nil _ uniform.nonempty
      exact deepestNesting_lt (Nat.zero_lt_of_lt (bound first inGroup)) bound
  | @entries subject group isGroup =>
      have bound : ∀ declaration ∈ group, declaration.nesting < subject.levels := by
        intro declaration member
        obtain ⟨entry, isEntry, same⟩ := arrangement.exists_sibling_of_mem_groups isGroup member
        rw [← nesting_unrenamed, ← same, nesting_unrenamed]
        exact nesting_lt_levels_of_mem_enumEntries isEntry
      obtain ⟨dri, uniform⟩ := arrangement.haveDri_of_mem_groups isGroup
      obtain ⟨first, inGroup⟩ := List.exists_mem_of_ne_nil _ uniform.nonempty
      exact deepestNesting_lt (Nat.zero_lt_of_lt (bound first inGroup)) bound

/-- What holds of every page if it holds of a page whenever it holds of the pages directly below. -/
theorem belowInduction {motive : Subject → Prop}
    (step : ∀ subject, (∀ placed ∈ arrangement.below subject, motive placed) → motive subject)
    (subject : Subject) : motive subject := by
  have ofLevels : ∀ bound (subject : Subject), subject.levels < bound → motive subject := by
    intro bound
    induction bound with
    | zero => exact fun _ below => (Nat.not_lt_zero _ below).elim
    | succ bound ih =>
        intro subject below
        refine step subject fun placed member => ih placed ?_
        have deeper := arrangement.levels_lt_of_places (arrangement.places_of_mem_below member)
        omega
  exact ofLevels _ subject (Nat.lt_succ_self _)

private theorem below_eq_nil {subject : Subject} (flat : subject.levels = 0) :
    arrangement.below subject = [] := by
  rw [List.eq_nil_iff_forall_not_mem]
  intro placed member
  have deeper := arrangement.levels_lt_of_places (arrangement.places_of_mem_below member)
  omega

private theorem planWithin_eq_of_levels_le {first second : Nat} {subject : Subject}
    (firstEnough : subject.levels ≤ first) (secondEnough : subject.levels ≤ second) :
    arrangement.planWithin first subject = arrangement.planWithin second subject := by
  induction first generalizing second subject with
  | zero =>
      have nothing := arrangement.below_eq_nil (Nat.le_zero.mp firstEnough)
      cases second <;> simp [planWithin, nothing]
  | succ first ih =>
      cases second with
      | zero =>
          have nothing := arrangement.below_eq_nil (Nat.le_zero.mp secondEnough)
          simp [planWithin, nothing]
      | succ second =>
          rw [planWithin, planWithin]
          congr 1
          refine List.map_congr_left fun placed member => ?_
          have deeper := arrangement.levels_lt_of_places (arrangement.places_of_mem_below member)
          exact ih (by omega) (by omega)

/-- The plan of a page has the plans of the pages below it. -/
theorem plan_eq (subject : Subject) :
    arrangement.plan subject = ⟨subject, (arrangement.below subject).map arrangement.plan⟩ := by
  have unfolded : arrangement.plan subject = arrangement.planWithin (subject.levels + 1) subject :=
    arrangement.planWithin_eq_of_levels_le (Nat.le_refl _) (Nat.le_succ _)
  rw [unfolded, planWithin]
  congr 1
  refine List.map_congr_left fun placed member => ?_
  have deeper := arrangement.levels_lt_of_places (arrangement.places_of_mem_below member)
  exact arrangement.planWithin_eq_of_levels_le (by omega) (Nat.le_refl _)

end Arrangement

end DocPages
