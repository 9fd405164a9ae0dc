import DocPages.Proofs.Page.Building
import Mathlib.Data.List.Nodup

/-!
# Pages of merged siblings

With merging, siblings of one kind that share an identity share a page. The constructors of a group
of types are an exception, as each has a page of its own, and siblings of different kinds are never
merged. So the pages below a group of types have different identities only if its constructors do
and siblings of different kinds do.
-/

namespace DocPages

open Build Declaration

theorem OrderedSet.toList_inj {α : Type} {left right : OrderedSet α} :
    left.toList = right.toList ↔ left = right := by
  cases left
  cases right
  rw [mk.injEq]

namespace Declaration

/-- The types, functions, properties and entries that have pages below a group of types. -/
def siblingKinds (group : List Declaration) : List (List Declaration) :=
  let classlikes := group.filter isClasslike
  let members := Members.ofDeclarations classlikes
  [members.types, members.functions.filter (!·.isInherited),
    members.properties.filter (!·.isInherited), classlikes.flatMap enumEntries]

/-- The declarations of every page below a group of types, with their identity: each constructor
alone, and the siblings of each kind by identity. -/
def mergedSiblings (group : List Declaration) : List (Dri × List Declaration) :=
  (shownConstructors group).map (fun constructor => (constructor.dri, [constructor])) ++
    (siblingKinds group).flatMap (groupByFirstSeenKeyed dri)

/-- No declaration of the first list has the identity of one of the second. -/
def HaveOtherDris (left right : List Declaration) : Prop :=
  ∀ first ∈ left, ∀ second ∈ right, first.dri ≠ second.dri

/-- The siblings of an identity have that identity. -/
theorem haveDri_of_mem_groupByFirstSeenKeyed {siblings : List Declaration}
    {shared : Dri × List Declaration} (member : shared ∈ groupByFirstSeenKeyed dri siblings) :
    HaveDri shared.1 shared.2 := by
  rw [groupByFirstSeenKeyed_eq] at member
  obtain ⟨value, isKey, rfl⟩ := List.mem_map.mp member
  obtain ⟨sibling, isSibling, same⟩ := List.mem_map.mp (mem_keysInOrder.mp isKey)
  refine ⟨List.ne_nil_of_mem (List.mem_filter.mpr ⟨isSibling, decide_eq_true same⟩), ?_⟩
  exact fun declaration inGroup => of_decide_eq_true (List.mem_filter.mp inGroup).2

theorem haveDri_of_mem_mergedSiblings {group : List Declaration}
    {shared : Dri × List Declaration} (member : shared ∈ mergedSiblings group) :
    HaveDri shared.1 shared.2 := by
  rcases List.mem_append.mp member with isConstructor | inKind
  · obtain ⟨constructor, -, rfl⟩ := List.mem_map.mp isConstructor
    exact haveDri_singleton constructor
  · obtain ⟨siblings, -, inSiblings⟩ := List.mem_flatMap.mp inKind
    exact haveDri_of_mem_groupByFirstSeenKeyed inSiblings

private theorem map_fst_groupByFirstSeenKeyed (siblings : List Declaration) :
    (groupByFirstSeenKeyed dri siblings).map Prod.fst = keysInOrder dri siblings := by
  rw [groupByFirstSeenKeyed_eq, List.map_map]
  exact List.map_id _

private theorem haveOtherDris_iff {left right : List Declaration} :
    HaveOtherDris left right ↔ (left.map dri).Disjoint (right.map dri) := by
  rw [List.disjoint_iff_ne, List.forall_mem_map]
  simp only [List.forall_mem_map, HaveOtherDris]

/-- The identities below a group of types repeat only among constructors and between kinds. -/
theorem nodup_mergedSiblings_iff (group : List Declaration) :
    ((mergedSiblings group).map Prod.fst).Nodup ↔
      ((shownConstructors group).map dri).Nodup ∧
        (shownConstructors group :: siblingKinds group).Pairwise HaveOtherDris := by
  have dris : (mergedSiblings group).map Prod.fst =
      (shownConstructors group).map dri ++ (siblingKinds group).flatMap (keysInOrder dri) := by
    rw [mergedSiblings, List.map_append, List.map_map, List.map_flatMap]
    simp only [map_fst_groupByFirstSeenKeyed]
    rfl
  have kinds : ((siblingKinds group).flatMap (keysInOrder dri)).Nodup ↔
      (siblingKinds group).Pairwise HaveOtherDris := by
    rw [List.nodup_flatMap, and_iff_right fun siblings _ => nodup_keysInOrder dri siblings]
    have apart : Function.onFun List.Disjoint (keysInOrder dri) = HaveOtherDris := by
      funext left right
      simp only [haveOtherDris_iff, Function.onFun, List.Disjoint, mem_keysInOrder]
    rw [apart]
  have across : ((shownConstructors group).map dri).Disjoint
      ((siblingKinds group).flatMap (keysInOrder dri)) ↔
        ∀ siblings ∈ siblingKinds group, HaveOtherDris (shownConstructors group) siblings := by
    simp only [haveOtherDris_iff]
    constructor
    · intro apart siblings isKind dri isConstructor inKind
      exact apart isConstructor
        (List.mem_flatMap.mpr ⟨siblings, isKind, mem_keysInOrder.mpr inKind⟩)
    · intro apart dri isConstructor inKinds
      obtain ⟨siblings, isKind, inKind⟩ := List.mem_flatMap.mp inKinds
      exact apart siblings isKind isConstructor (mem_keysInOrder.mp inKind)
  rw [dris, List.nodup_append', kinds, across, List.pairwise_cons]
  exact and_congr_right fun _ => and_comm

end Declaration

namespace Arrangement

variable (arrangement : Arrangement)

/-- Without type aliases, types are grouped as other siblings. -/
theorem typeGroups_eq_groups {types : List Declaration}
    (noAlias : ∀ type ∈ types, type.isTypeAlias = false) :
    arrangement.typeGroups types = arrangement.groups types := by
  have notActual : ∀ type ∈ types, isActualAlias types type = false := fun type member => by
    rw [isActualAlias, noAlias type member, Bool.false_and]
  have noneAdded : types.filter (isActualAlias types) = [] :=
    List.filter_eq_nil_iff.mpr fun type member => by simp [notActual type member]
  have allStandalone : standaloneTypes types = types :=
    List.filter_eq_self.mpr fun type member => by simp [notActual type member]
  rw [typeGroups, noneAdded, allStandalone, List.foldl_nil]

/-- The types nested in classes are classes. -/
private theorem isTypeAlias_of_mem_nestedTypes {group : List Declaration} {type : Declaration}
    (member : type ∈ (Members.ofDeclarations (group.filter isClasslike)).types) :
    type.isTypeAlias = false := by
  obtain ⟨holder, isHolder, inHolder⟩ := List.mem_flatMap.mp member
  cases holder with
  | classlike decl =>
      obtain ⟨nested, -, rfl⟩ := List.mem_map.mp inHolder
      rfl
  | module | package | typeAlias | function | property | enumEntry =>
      exact nomatch (List.mem_filter.mp isHolder).2

/-- With merging, the pages below a group of types are for its merged siblings. -/
theorem map_dris_below_of_merges (merges : arrangement.settings.mergeVariants = true)
    (group : List Declaration) :
    (arrangement.below (.classlikes group)).map
        (fun subject => (subject.dris.toList, subject.declarations)) =
      (mergedSiblings group).map fun shared => ([shared.1], shared.2) := by
  have merged (siblings : List Declaration) :
      arrangement.groups siblings = (groupByFirstSeenKeyed dri siblings).map Prod.snd := by
    rw [groups, if_pos merges]
    rfl
  have types : arrangement.typeGroups (Members.ofDeclarations (group.filter isClasslike)).types =
      arrangement.groups (Members.ofDeclarations (group.filter isClasslike)).types :=
    arrangement.typeGroups_eq_groups fun _ => isTypeAlias_of_mem_nestedTypes
  have shown : (arrangement.below (.classlikes group)).map
      (fun subject => (subject.dris.toList, subject.declarations)) =
        (mergedSiblings group).map fun shared => ((drisOf shared.2).toList, shared.2) := by
    simp [below, scopeSubjects, memberSubjects, mergedSiblings, siblingKinds, types, merged,
      Function.comp_def, Subject.dris, Subject.declarations]
  rw [shown]
  exact List.map_congr_left fun shared member => by
    rw [(haveDri_of_mem_mergedSiblings member).toList_drisOf]

end Arrangement

namespace PageMaker

variable (maker : PageMaker)

/-- The page is for the subject. -/
private theorem ensures_subject (subject : Subject) :
    EnsuresUnlessFailed (fun _ => True) (maker.build subject) fun page =>
      page.dris = subject.dris ∧ page.declarations = subject.declarations := by
  rw [build_eq]
  refine EnsuresUnlessFailed.bind (ensuresUnlessFailed_true _) fun _ _ => ?_
  refine EnsuresUnlessFailed.bind (ensuresUnlessFailed_true _) fun children _ => ?_
  refine EnsuresUnlessFailed.bind (ensuresUnlessFailed_true _) fun content _ => ?_
  exact ensuresUnlessFailed_pure ⟨rfl, rfl⟩

/-- The pages directly below a page are for the subjects below its own. -/
private theorem ensures_subjects_children (subject : Subject) :
    EnsuresUnlessFailed (fun _ => True) (maker.build subject) fun page =>
      page.children.map (fun child => (child.dris, child.declarations)) =
        (maker.below subject).map fun placed => (placed.dris, placed.declarations) := by
  rw [build_eq]
  refine EnsuresUnlessFailed.bind (ensuresUnlessFailed_true _) fun _ _ => ?_
  refine EnsuresUnlessFailed.bind
    (ensuresUnlessFailed_mapM fun placed _ => maker.ensures_subject placed) fun children built => ?_
  refine EnsuresUnlessFailed.bind (ensuresUnlessFailed_true _) fun content _ => ?_
  refine ensuresUnlessFailed_pure ?_
  rw [← List.forall₂_eq_eq_eq, List.forall₂_map_left_iff, List.forall₂_map_right_iff]
  exact built.flip.imp fun child placed same => Prod.ext same.1 same.2

variable {maker}

/-- With merging, the pages below that of a group of types are those of its constructors, each for
one constructor, and then one page for all siblings of a kind that share an identity. They have
pairwise different identities exactly if no two constructors share one and no siblings of different
kinds do. -/
theorem merged_children_of_build (merges : maker.settings.mergeVariants = true)
    {group : List Declaration} {session : Session} {page : Page}
    (built : ((maker.build (.classlikes group)).run.run session).1 = .ok page) :
    page.children.map (fun child => (child.dris.toList, child.declarations)) =
      (mergedSiblings group).map (fun shared => ([shared.1], shared.2)) ∧
    ((page.children.Pairwise fun left right => left.dris ≠ right.dris) ↔
      ((shownConstructors group).map dri).Nodup ∧
        (shownConstructors group :: siblingKinds group).Pairwise HaveOtherDris) := by
  have subjects :=
    (maker.ensures_subjects_children (.classlikes group) session trivial).1 page built
  have children : page.children.map (fun child => (child.dris.toList, child.declarations)) =
      (mergedSiblings group).map fun shared => ([shared.1], shared.2) := by
    rw [← maker.map_dris_below_of_merges merges group]
    have lists := congrArg (List.map fun shown : OrderedSet Dri × List Declaration =>
      (shown.1.toList, shown.2)) subjects
    simpa only [List.map_map, Function.comp_def] using lists
  refine ⟨children, ?_⟩
  have dris : page.children.map (fun child => child.dris.toList) =
      ((mergedSiblings group).map Prod.fst).map ([·]) := by
    have first := congrArg (List.map Prod.fst) children
    simpa only [List.map_map, Function.comp_def] using first
  calc (page.children.Pairwise fun left right => left.dris ≠ right.dris)
      ↔ (page.children.map fun child => child.dris.toList).Nodup := by
        rw [List.Nodup, List.pairwise_map]
        simp only [ne_eq, OrderedSet.toList_inj]
    _ ↔ ((mergedSiblings group).map Prod.fst).Nodup := by
        rw [dris, List.nodup_map_iff fun left right same => List.singleton_inj.mp same]
    _ ↔ _ := nodup_mergedSiblings_iff group

/-- A maker of pages that merges siblings. -/
def merging : PageMaker where
  settings := { mergeVariants := true }
  registry := .ofList []

/-- A class on a platform, with a constructor and a function. -/
def crate (platform : String) : Declaration :=
  let inCrate := fun (name : String) =>
    { Dri.ofClass "shapes" "Crate" with callable := some { name } }
  let named := fun (name : String) (dri : Dri) =>
    ({ dri, name := some name, sourceSets := .singleton ⟨"shapes", platform⟩ } : Common)
  .classlike
    { common := named "Crate" (.ofClass "shapes" "Crate")
      constructors := [{ common := named "Crate" (inCrate "Crate"), isConstructor := true }]
      functions := [{ common := named "open" (inCrate "open") }] }

/-- Below the page of the class on two platforms stand pages with the identities of the two
constructors and of the function. -/
theorem exists_page_crates :
    ∃ page session,
      (merging.build (.classlikes [crate "jvm", crate "js"])).run.run {} = (.ok page, session) ∧
      page.children.map (fun child => child.dris.toList) =
        [(shownConstructors [crate "jvm"]).map dri, (shownConstructors [crate "js"]).map dri,
          (crate "jvm").memberFunctions.map dri] := by
  have shown : ((merging.build (.classlikes [crate "jvm", crate "js"])).run.run {}).1.toOption.map
      (fun page => page.children.map fun child => child.dris.toList) =
        some [(shownConstructors [crate "jvm"]).map dri, (shownConstructors [crate "js"]).map dri,
          (crate "jvm").memberFunctions.map dri] := by
    decide +kernel
  cases run : (merging.build (.classlikes [crate "jvm", crate "js"])).run.run {} with
  | mk outcome session =>
      rw [run] at shown
      cases outcome with
      | error failure => cases shown
      | ok page => exact ⟨page, session, rfl, Option.some.inj shown⟩

/-- The functions of the two variants share a page, their constructors do not. -/
theorem merged_children_of_build_crates :
    ∃ page session,
      (merging.build (.classlikes [crate "jvm", crate "js"])).run.run {} = (.ok page, session) ∧
      page.children.map (fun child => (child.dris.toList, child.declarations)) =
        (mergedSiblings [crate "jvm", crate "js"]).map (fun shared => ([shared.1], shared.2)) := by
  obtain ⟨page, session, run, -⟩ := exists_page_crates
  exact ⟨page, session, run, (merged_children_of_build rfl (congrArg Prod.fst run)).1⟩

/-- The two constructors have one identity and two pages, although siblings are merged. -/
theorem exists_not_pairwise_dris :
    ∃ page session,
      (merging.build (.classlikes [crate "jvm", crate "js"])).run.run {} = (.ok page, session) ∧
      ¬page.children.Pairwise fun left right => left.dris ≠ right.dris := by
  obtain ⟨page, session, run, shown⟩ := exists_page_crates
  refine ⟨page, session, run, fun differ => ?_⟩
  have distinct : (page.children.map fun child => child.dris.toList).Nodup := by
    rw [List.Nodup, List.pairwise_map]
    exact differ.imp fun other => OrderedSet.toList_inj.not.mpr other
  rw [shown] at distinct
  exact absurd distinct (by decide)

end PageMaker

end DocPages
