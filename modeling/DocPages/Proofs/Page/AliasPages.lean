import DocPages.Proofs.Page.Arranged
import DocPages.Proofs.Siblings.ActualAliases

/-!
# Pages of type aliases that implement classes

A type alias that implements a class of its package stands on one page below the package, the page
of a class of its identity. No page further below holds type aliases, and no other page of a package
does. Whether the page has the class that others implement depends on how siblings are spread.
-/

namespace DocPages

open Declaration Build

/-! ## Pages without type aliases -/

/-- The page is for no type alias. -/
def Subject.HasNoAlias (subject : Subject) : Prop :=
  ∀ declaration ∈ subject.declarations, declaration.isTypeAlias = false

namespace Declaration

private theorem isTypeAlias_of_mem_members (holder : Declaration) {member : Declaration}
    (isMember : member ∈ holder.constructors ++ holder.memberFunctions ++ holder.memberProperties ++
      holder.enumEntries) : member.isTypeAlias = false := by
  cases member with
  | typeAlias decl =>
      cases holder <;>
        simp [constructors, memberFunctions, memberProperties, enumEntries] at isMember
  | module | package | classlike | function | property | enumEntry => rfl

/-- Only packages hold type aliases. -/
private theorem isTypeAlias_of_mem_memberTypes {holder type : Declaration}
    (notPackage : ∀ decl, holder ≠ .package decl) (member : type ∈ holder.memberTypes) :
    type.isTypeAlias = false := by
  cases type with
  | typeAlias decl => cases holder <;> simp_all [memberTypes]
  | module | package | classlike | function | property | enumEntry => rfl

end Declaration

private theorem Subject.holder_ne_package {subject : Subject} {holder : Declaration}
    (isHolder : holder ∈ subject.holders) (notPackage : subject.kind ≠ .package)
    (decl : PackageDecl) : holder ≠ .package decl := by
  rintro rfl
  cases subject <;> simp_all [holders, kind, isClasslike, isEnumEntry]

namespace Arrangement

variable (arrangement : Arrangement)

/-- Only the pages of types directly below a package are for type aliases. -/
private theorem hasNoAlias_of_places {subject placed : Subject}
    (places : arrangement.Places subject placed)
    (nested : subject.kind = .package → placed.kind ≠ .classlike) : placed.HasNoAlias := by
  have ofMembers : ∀ {siblings group : List Declaration},
      (∀ sibling ∈ siblings, sibling.isTypeAlias = false) → group ∈ arrangement.groups siblings →
        ∀ declaration ∈ group, declaration.isTypeAlias = false := by
    intro siblings group noAlias isGroup declaration member
    obtain ⟨sibling, isSibling, same⟩ := arrangement.exists_sibling_of_mem_groups isGroup member
    rw [← isTypeAlias_unrenamed, ← same, isTypeAlias_unrenamed]
    exact noAlias sibling isSibling
  cases places with
  | package | allTypes => simp [Subject.HasNoAlias, Subject.declarations, isTypeAlias]
  | constructor member =>
      cases subject with
      | classlikes group =>
          obtain ⟨type, -, isConstructor⟩ := exists_of_mem_shownConstructors member
          exact List.forall_mem_singleton.mpr
            (isTypeAlias_of_mem_members type (by simp [isConstructor]))
      | module | allTypes | package | enumEntries | members => cases member
  | types isGroup =>
      intro declaration member
      obtain ⟨type, isType, same⟩ := arrangement.exists_sibling_of_mem_typeGroups isGroup member
      obtain ⟨holder, isHolder, inHolder⟩ := List.mem_flatMap.mp isType
      rw [← isTypeAlias_unrenamed, ← same, isTypeAlias_unrenamed]
      exact isTypeAlias_of_mem_memberTypes
        (Subject.holder_ne_package isHolder fun isPackage => nested isPackage rfl) inHolder
  | functions isGroup | properties isGroup =>
      refine ofMembers (fun sibling isSibling => ?_) isGroup
      obtain ⟨holder, -, inHolder⟩ := List.mem_flatMap.mp (List.mem_filter.mp isSibling).1
      exact isTypeAlias_of_mem_members holder (by simp [inHolder])
  | entries isGroup =>
      refine ofMembers (fun sibling isSibling => ?_) isGroup
      obtain ⟨holder, -, inHolder⟩ := List.mem_flatMap.mp isSibling
      exact isTypeAlias_of_mem_members holder (by simp [inHolder])

end Arrangement

/-! ## Pages below types -/

/-- The page is for types, entries or members. -/
def Subject.IsNested (subject : Subject) : Prop :=
  subject.kind = .classlike ∨ subject.kind = .member

namespace Arrangement

variable (arrangement : Arrangement)

private theorem isNested_of_places {subject placed : Subject}
    (places : arrangement.Places subject placed) (notModule : subject.kind ≠ .module) :
    placed.IsNested := by
  cases places with
  | package | allTypes => exact (notModule rfl).elim
  | types | entries => exact .inl rfl
  | constructor | functions | properties => exact .inr rfl

/-- Of a page for types, entries or members and the pages below it, only the page itself can be for
a type alias. -/
private theorem filter_all_of_arranges {shown : Subject → Content.Node → Prop} {subject : Subject}
    {page : Page} (arranged : arrangement.Arranges shown subject page) (nested : subject.IsNested)
    (decl : TypeAliasDecl) :
    page.all.filter (fun reached => .typeAlias decl ∈ reached.declarations) =
      [page].filter fun reached => .typeAlias decl ∈ reached.declarations := by
  have notPackage : ∀ {placed : Subject}, placed.IsNested →
      placed.kind ≠ .package ∧ placed.kind ≠ .module := by
    rintro placed (isTypes | isMembers)
    · simp [isTypes]
    · simp [isMembers]
  have placedBelow : ∀ {subject placed : Subject}, subject.IsNested →
      placed ∈ arrangement.below subject → placed.IsNested ∧ placed.HasNoAlias := by
    intro subject placed nested isBelow
    have places := arrangement.places_of_mem_below isBelow
    exact ⟨arrangement.isNested_of_places places (notPackage nested).2,
      arrangement.hasNoAlias_of_places places fun isPackage =>
        ((notPackage nested).1 isPackage).elim⟩
  have noneBelow : (page.children.flatMap Page.all).filter
      (fun reached => .typeAlias decl ∈ reached.declarations) = [] := by
    cases arranged with
    | page holds below =>
        refine List.filter_eq_nil_iff.mpr fun reached member isAlias => ?_
        obtain ⟨child, isChild, isReached⟩ := List.mem_flatMap.mp member
        obtain ⟨placed, isBelow, childArranged⟩ := exists_related_of_mem below.flip isChild
        have noAlias : ∀ reached ∈ child.all, ∀ declaration ∈ reached.declarations,
            declaration.isTypeAlias = false :=
          childArranged.forall_mem_all (fun _ eligible _ => placedBelow eligible.1)
            (fun _ _ _ eligible _ => eligible.2) (placedBelow nested isBelow)
        exact Bool.eq_false_iff.mp
          (noAlias reached isReached (.typeAlias decl) (by simpa using isAlias)) rfl
  rw [Page.all_eq, List.filter_cons, noneBelow, List.filter_singleton]
  simp

end Arrangement

/-! ## Pages below packages -/

namespace Arrangement

variable (arrangement : Arrangement) {decl : PackageDecl} {synonym : TypeAliasDecl}

/-- The pages of a package that are for a type alias stand directly below it. -/
private theorem filter_all_package {shown : Subject → Content.Node → Prop} {page : Page}
    (arranged : arrangement.Arranges shown (.package decl) page) :
    page.all.filter (fun reached => .typeAlias synonym ∈ reached.declarations) =
      page.children.filter fun child => .typeAlias synonym ∈ child.declarations := by
  cases arranged with
  | @page _ content children holds below =>
      have notItself : .typeAlias synonym ∉
          ((Subject.package decl).page content children).declarations :=
        List.not_mem_cons_of_ne_of_not_mem nofun List.not_mem_nil
      rw [Page.all_eq, List.filter_cons_of_neg (by simpa using notItself), List.filter_flatMap]
      have each : ∀ child ∈ children,
          child.all.filter (fun reached => .typeAlias synonym ∈ reached.declarations) =
            [child].filter fun reached => .typeAlias synonym ∈ reached.declarations := by
        intro child isChild
        obtain ⟨placed, isBelow, childArranged⟩ := exists_related_of_mem below.flip isChild
        have places := arrangement.places_of_mem_below isBelow
        exact arrangement.filter_all_of_arranges childArranged
          (arrangement.isNested_of_places places nofun) synonym
      refine (List.flatMap_congr each).trans ?_
      rw [← List.filter_flatMap, List.flatMap_singleton']
      rfl

/-- The first class of an identity among the types of a package. -/
private theorem find?_ofDri_memberTypes (decl : PackageDecl) (dri : Dri) :
    ((ofDri dri (Declaration.package decl).memberTypes).find? isClasslike).any isExpected =
      (decl.classlikes.find? (·.common.dri = dri)).any (·.expectPresentIn.isSome) := by
  have noAlias : (decl.typeAliases.map Declaration.typeAlias).find?
      (fun type => decide (decide (type.dri = dri) ∧ type.isClasslike)) = none :=
    List.find?_eq_none.mpr fun type member => by
      obtain ⟨synonym, -, rfl⟩ := List.mem_map.mp member
      simp [isClasslike]
  have ofClass : (fun type => decide (decide (type.dri = dri) ∧ type.isClasslike)) ∘
      Declaration.classlike = fun decl => decide (decl.common.dri = dri) := by
    funext decl
    have ownDri : (Declaration.classlike decl).dri = decl.common.dri := rfl
    simp [ownDri, isClasslike]
  rw [ofDri, List.find?_filter, memberTypes, List.find?_append, noAlias, Option.or_none,
    List.find?_map, Option.any_map, ofClass]
  rfl

/-- Directly below a package, only pages for types are for type aliases. -/
private theorem filter_below_package (decl : PackageDecl) (synonym : TypeAliasDecl) :
    (arrangement.below (.package decl)).filter
        (fun placed => .typeAlias synonym ∈ placed.declarations) =
      ((arrangement.typeGroups (Declaration.package decl).memberTypes).filter
        (.typeAlias synonym ∈ ·)).map .classlikes := by
  let others := arrangement.memberSubjects (decl.functions.map .function) ++
    arrangement.memberSubjects (decl.properties.map .property)
  have below : arrangement.below (.package decl) =
      (arrangement.typeGroups (Declaration.package decl).memberTypes).map .classlikes ++
        others := by
    rw [Arrangement.below, scopeSubjects, List.append_assoc]
    simp only [Members.ofDeclarations, List.flatMap_singleton]
    rfl
  have noOther : others.filter (fun placed => .typeAlias synonym ∈ placed.declarations) = [] := by
    refine List.filter_eq_nil_iff.mpr fun placed isOther isAlias => ?_
    have isMembers : placed.kind = .member := by
      rcases List.mem_append.mp isOther with isFunctions | isProperties
      · obtain ⟨group, -, rfl⟩ := List.mem_map.mp isFunctions
        rfl
      · obtain ⟨group, -, rfl⟩ := List.mem_map.mp isProperties
        rfl
    have noAlias := arrangement.hasNoAlias_of_places
      (arrangement.places_of_mem_below (below ▸ List.mem_append_right _ isOther))
      (fun _ => by simp [isMembers])
    exact Bool.eq_false_iff.mp (noAlias (.typeAlias synonym) (by simpa using isAlias)) rfl
  rw [below, List.filter_append, noOther, List.append_nil, List.filter_map]
  rfl

/-- A type alias that implements a class of its package is on one page below the package, with all
type aliases of its identity behind classes of its identity. -/
private theorem exists_filter_below_package (isAlias : synonym ∈ decl.typeAliases)
    {expected : ClasslikeDecl} (isClass : expected ∈ decl.classlikes)
    (present : expected.expectPresentIn.isSome)
    (sameDri : expected.common.dri = synonym.common.dri) :
    ∃ group,
      (arrangement.below (.package decl)).filter
          (fun placed => .typeAlias synonym ∈ placed.declarations) = [.classlikes group] ∧
      group.count (.typeAlias synonym) =
        (decl.typeAliases.map Declaration.typeAlias).count (.typeAlias synonym) ∧
      (∀ type ∈ group, type.dri = synonym.common.dri) ∧
      (∃ type ∈ group, type.isClasslike) ∧
      ((∃ type ∈ group, type.isExpected) ↔ arrangement.settings.mergeVariants ∨
        (decl.classlikes.find? (·.common.dri = synonym.common.dri)).any
          (·.expectPresentIn.isSome)) := by
  let types := (Declaration.package decl).memberTypes
  have isType : .typeAlias synonym ∈ types :=
    List.mem_append_right _ (List.mem_map_of_mem isAlias)
  have expectedType : .classlike expected ∈ types :=
    List.mem_append_left _ (List.mem_map_of_mem isClass)
  obtain ⟨group, only, counted, ofDri, hasClass, expectation⟩ :=
    arrangement.exists_filter_typeGroups
      (fun type => isClasslike_or_isTypeAlias_of_mem_memberTypes) expectedType present isType rfl
      sameDri.symm
  refine ⟨group, ?_, ?_, ofDri, hasClass, ?_⟩
  · rw [filter_below_package, only, List.map_singleton]
  · have notClass : .typeAlias synonym ∉ decl.classlikes.map Declaration.classlike := by simp
    rw [counted]
    exact List.count_append.trans (by rw [List.count_eq_zero.mpr notClass, Nat.zero_add])
  · rw [expectation]
    exact or_congr_right (by rw [← find?_ofDri_memberTypes]; rfl)

end Arrangement

namespace PageMaker

variable {maker : PageMaker} {decl : PackageDecl} {session : Session} {page : Page}

/-- A type alias that implements a class of its package stands on one page, as often as in the
package. The page is for types of its identity, one of them a class. It has a class that others
implement if siblings are merged. If they are not, it has one only if the first class of the
identity is one. -/
theorem actualAlias_of_build
    (built : ((maker.build (.package decl)).run.run session).1 = .ok page) {synonym : TypeAliasDecl}
    (isAlias : synonym ∈ decl.typeAliases)
    (implements : ∃ expected ∈ decl.classlikes,
      expected.common.dri = synonym.common.dri ∧ expected.expectPresentIn.isSome) :
    ∃ target,
      page.all.filter (fun reached => .typeAlias synonym ∈ reached.declarations) = [target] ∧
      target.kind = .classlike ∧
      target.declarations.count (.typeAlias synonym) =
        (decl.typeAliases.map Declaration.typeAlias).count (.typeAlias synonym) ∧
      (∀ type ∈ target.declarations, type.dri = synonym.common.dri) ∧
      (∃ type ∈ target.declarations, type.isClasslike) ∧
      ((∃ type ∈ target.declarations, type.isExpected) ↔
        maker.settings.mergeVariants ∨
          (decl.classlikes.find? (·.common.dri = synonym.common.dri)).any
            (·.expectPresentIn.isSome)) := by
  obtain ⟨expected, isClass, sameDri, present⟩ := implements
  obtain ⟨group, only, counted, ofDri, hasClass, expectation⟩ :=
    maker.exists_filter_below_package isAlias isClass present sameDri
  have hasDri : (Subject.package decl).HasDri decl.common.dri :=
    ⟨rfl, by simp [Subject.declarations, Declaration.dri, common?]⟩
  have arranged := (maker.ensures_arranges (fun _ _ _ _ => trivial)
    (fun subject _ => ensuresUnlessFailed_true (maker.content subject)) hasDri trivial
    session trivial).1 page built
  rw [maker.filter_all_package arranged]
  obtain ⟨target, isTarget, target_eq⟩ : ∃ target,
      maker.Arranges (fun _ _ => True) (.classlikes group) target ∧
        (page.children.filter fun child => .typeAlias synonym ∈ child.declarations) = [target] := by
    cases arranged with
    | @page _ content children holds below =>
        have beside : List.Forall₂ (maker.Arranges fun _ _ => True) [.classlikes group]
            (children.filter fun child => .typeAlias synonym ∈ child.declarations) := by
          rw [← only]
          refine List.rel_filter (fun placed child childArranged => ?_) below
          cases childArranged
          rfl
        obtain ⟨target, _, isTarget, nothing, target_eq⟩ := List.forall₂_cons_left_iff.mp beside
        cases nothing
        exact ⟨target, isTarget, target_eq⟩
  refine ⟨target, target_eq, ?_⟩
  cases isTarget
  exact ⟨rfl, counted, ofDri, hasClass, expectation⟩

/-- A maker of pages that merges siblings or tells them apart. -/
def mergingIf (mergeVariants : Bool) : PageMaker where
  settings := { mergeVariants }
  registry := .ofList []

/-- The identity, the name and the platform of a declaration of the class `Box`. -/
def boxOn (platform : String) : Common where
  dri := .ofClass "shapes" "Box"
  name := "Box"
  sourceSets := .singleton ⟨"shapes", platform⟩

/-- A type alias that implements the class `Box`. -/
def actualBox : TypeAliasDecl where
  common := boxOn "jvm"

/-- A package with a class `Box` that nothing implements, a class `Box` that others implement, and
the type alias. -/
def boxPackage : PackageDecl where
  common := { dri := .ofPackage "shapes", name := "shapes" }
  classlikes :=
    [{ common := boxOn "js" },
      { common := boxOn "common", expectPresentIn := some ⟨"shapes", "common"⟩ }]
  typeAliases := [actualBox]

private theorem exists_page_boxPackage (mergeVariants : Bool) :
    ∃ page, (((mergingIf mergeVariants).build (.package boxPackage)).run.run {}).1 = .ok page ∧
      (mergeVariants = false → ∀ reached ∈ page.all,
        .typeAlias actualBox ∈ reached.declarations →
          ∀ type ∈ reached.declarations, type.isExpected = false) := by
  have built : (((mergingIf mergeVariants).build (.package boxPackage)).run.run {}).1.toOption.map
      (fun page => mergeVariants || page.all.all fun reached =>
        !decide (.typeAlias actualBox ∈ reached.declarations) ||
          reached.declarations.all fun type => !type.isExpected) = some true := by
    cases mergeVariants <;> decide +kernel
  cases run : (((mergingIf mergeVariants).build (.package boxPackage)).run.run {}).1 with
  | error failure =>
      rw [run] at built
      cases built
  | ok page =>
      rw [run] at built
      refine ⟨page, rfl, ?_⟩
      rintro rfl
      simpa [imp_iff_not_or] using Option.some.inj built

/-- If siblings are merged, the page of the type alias has the class that others implement. -/
theorem actualAlias_of_build_boxPackage :
    ∃ page, (((mergingIf true).build (.package boxPackage)).run.run {}).1 = .ok page ∧
      actualBox ∈ boxPackage.typeAliases ∧
      (∃ expected ∈ boxPackage.classlikes, expected.common.dri = actualBox.common.dri ∧
        expected.expectPresentIn.isSome) ∧
      ∃ target,
        page.all.filter (fun reached => .typeAlias actualBox ∈ reached.declarations) = [target] ∧
        ∃ type ∈ target.declarations, type.isExpected := by
  obtain ⟨page, built, -⟩ := exists_page_boxPackage true
  have isAlias : actualBox ∈ boxPackage.typeAliases := List.mem_cons_self
  have implements : ∃ expected ∈ boxPackage.classlikes, expected.common.dri = actualBox.common.dri ∧
      expected.expectPresentIn.isSome :=
    ⟨_, List.mem_cons_of_mem _ List.mem_cons_self, rfl, rfl⟩
  obtain ⟨target, only, -, -, -, -, expectation⟩ := actualAlias_of_build built isAlias implements
  exact ⟨page, built, isAlias, implements, target, only, expectation.mpr (.inl rfl)⟩

/-- If siblings are told apart, no page has the type alias and the class that others implement, as
the other class comes first. -/
theorem exists_alias_apart_from_expected :
    actualBox ∈ boxPackage.typeAliases ∧
      (∃ expected ∈ boxPackage.classlikes, expected.common.dri = actualBox.common.dri ∧
        expected.expectPresentIn.isSome) ∧
      ∃ page, (((mergingIf false).build (.package boxPackage)).run.run {}).1 = .ok page ∧
        ¬∃ reached ∈ page.all, reached.kind = .classlike ∧
          .typeAlias actualBox ∈ reached.declarations ∧
          ∃ type ∈ reached.declarations, type.isExpected ∧ type.dri = actualBox.common.dri := by
  obtain ⟨page, built, apart⟩ := exists_page_boxPackage false
  refine ⟨List.mem_cons_self, ⟨_, List.mem_cons_of_mem _ List.mem_cons_self, rfl, rfl⟩, page, built,
    ?_⟩
  rintro ⟨reached, isReached, -, isAlias, type, member, isExpected, -⟩
  rw [apart rfl reached isReached isAlias type member] at isExpected
  cases isExpected

end PageMaker

end DocPages
