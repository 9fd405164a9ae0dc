import DocPages.Proofs.Page.Building
import DocPages.Proofs.Page.Walk
import Mathlib.Algebra.Order.Group.Multiset
import Mathlib.Tactic.Abel

/-!
# Every declaration is documented once

The pages of a module hold its declarations without repetition: every package, type and entry, every
function and property that is not inherited, and the constructors of the classes whose pages show
constructors. Declarations are counted up to the names that tell clashing identities apart.
-/

namespace DocPages

namespace Declaration

/-- The declarations of a list with their multiplicities, the names that tell clashing identities
apart aside. -/
def forms (declarations : List Declaration) : Multiset Declaration := declarations.map unrenamed

@[simp] theorem forms_nil : forms [] = 0 := rfl

@[simp] theorem forms_append (left right : List Declaration) :
    forms (left ++ right) = forms left + forms right := by
  rw [forms, List.map_append, ← Multiset.coe_add]
  rfl

theorem forms_cons (head : Declaration) (tail : List Declaration) :
    forms (head :: tail) = forms [head] + forms tail := forms_append [head] tail

theorem forms_eq_iff {left right : List Declaration} :
    forms left = forms right ↔ (left.map unrenamed).Perm (right.map unrenamed) :=
  Multiset.coe_eq_coe

/-- Lists of the same declarations make the same declarations if names that tell clashing identities
apart do not matter for what is made. -/
theorem forms_flatMap {left right : List Declaration} {made : Declaration → List Declaration}
    (ignores : ∀ declaration, forms (made declaration.unrenamed) = forms (made declaration))
    (same : forms left = forms right) : forms (left.flatMap made) = forms (right.flatMap made) := by
  have ofUnrenamed : ∀ declarations : List Declaration,
      forms ((declarations.map unrenamed).flatMap made) = forms (declarations.flatMap made) := by
    intro declarations
    induction declarations with
    | nil => rfl
    | cons head tail ih => simp [ih, ignores]
  have perm := (forms_eq_iff.mp same).flatMap_right made
  rw [← ofUnrenamed left, ← ofUnrenamed right]
  exact forms_eq_iff.mpr (perm.map unrenamed)

/-- What is made in two parts for every declaration of a list. -/
theorem forms_flatMap_append (declarations : List Declaration)
    (first second : Declaration → List Declaration) :
    forms (declarations.flatMap fun declaration => first declaration ++ second declaration) =
      forms (declarations.flatMap first) + forms (declarations.flatMap second) := by
  induction declarations with
  | nil => rfl
  | cons head tail ih =>
      simp only [List.flatMap_cons, forms_append, ih]
      abel

/-- A function or property that is inherited. -/
def isInheritedMember : Declaration → Bool
  | .function decl => (Declaration.function decl).isInherited
  | .property decl => (Declaration.property decl).isInherited
  | _ => false

/-- What is declared within a declaration, inherited members and constructors aside. -/
def ownWithin (declaration : Declaration) : List Declaration :=
  declaration.within.filter (!·.isInheritedMember)

end Declaration

open Declaration Build

namespace Page

/-- The page is for a package, for types or entries, or for members. -/
def isForDeclarations (page : Page) : Bool :=
  page.kind = .package ∨ page.kind = .classlike ∨ page.kind = .member

/-- The declarations of the pages of a tree that are for packages, for types and entries, and for
members. -/
def documented (page : Page) : List Declaration :=
  (page.all.filter isForDeclarations).flatMap declarations

/-- The constructors of the classes of a page, unless one of them is an annotation class. -/
def ownConstructors (page : Page) : List Declaration :=
  if page.kind = .classlike ∧ !page.declarations.any isAnnotationClass then
    page.declarations.flatMap Declaration.constructors
  else []

/-- The constructors of the classes on the pages of a tree whose page holds no annotation class. -/
def documentedConstructors (page : Page) : List Declaration :=
  page.all.flatMap ownConstructors

end Page

/-- The declarations of a module that have pages, constructors aside: all but inherited members. -/
def ModuleDecl.ownDeclarations (decl : ModuleDecl) : List Declaration :=
  decl.declarations.filter (!·.isInheritedMember)

namespace Declaration

/-! ## What is declared below a declaration -/

@[simp] theorem isInheritedMember_unrenamed (declaration : Declaration) :
    declaration.unrenamed.isInheritedMember = declaration.isInheritedMember := by
  cases declaration <;> rfl

/-- What is declared in a declaration and is not inherited. -/
def ownMembers (declaration : Declaration) : List Declaration :=
  declaration.memberTypes.flatMap ownWithin ++ declaration.enumEntries.flatMap ownWithin ++
    declaration.memberFunctions.filter (!·.isInherited) ++
      declaration.memberProperties.filter (!·.isInherited)

private theorem filter_members (kind : CallableKind) (declaration : Declaration) :
    (kind.members declaration).filter (!·.isInheritedMember) =
      (kind.members declaration).filter (!·.isInherited) := by
  refine List.filter_congr fun member isMember => ?_
  have isOfKind := kind.includes_of_mem_members isMember
  cases member with
  | function | property => rfl
  | module | package | classlike | typeAlias | enumEntry => cases kind <;> cases isOfKind

/-- What is declared within a declaration is the declaration and what is declared in it. -/
theorem ownWithin_eq (declaration : Declaration) :
    declaration.ownWithin =
      (if declaration.isInheritedMember then [] else [declaration]) ++ declaration.ownMembers := by
  have functions : declaration.memberFunctions.filter (!·.isInheritedMember) =
      declaration.memberFunctions.filter (!·.isInherited) :=
    filter_members .function declaration
  have properties : declaration.memberProperties.filter (!·.isInheritedMember) =
      declaration.memberProperties.filter (!·.isInherited) :=
    filter_members .property declaration
  rw [ownWithin, within_eq, List.filter_cons, List.filter_append, List.filter_append,
    List.filter_append, List.filter_flatMap, List.filter_flatMap, functions, properties]
  cases declaration.isInheritedMember <;> rfl

theorem forms_ownWithin_unrenamed (declaration : Declaration) :
    forms declaration.unrenamed.ownWithin = forms declaration.ownWithin := by
  rw [ownWithin_eq, ownWithin_eq declaration, forms_append, forms_append, ownMembers, ownMembers]
  simp only [isInheritedMember_unrenamed, memberTypes_unrenamed, enumEntries_unrenamed,
    memberFunctions_unrenamed, memberProperties_unrenamed]
  congr 1
  cases declaration.isInheritedMember <;> simp [forms]

/-- Siblings on pages declare what the siblings declare. -/
theorem forms_flatMap_ownWithin {groups : List (List Declaration)} {siblings : List Declaration}
    (perm : (groups.flatten.map unrenamed).Perm (siblings.map unrenamed)) :
    forms (groups.flatten.flatMap ownWithin) = forms (siblings.flatMap ownWithin) :=
  forms_flatMap forms_ownWithin_unrenamed (forms_eq_iff.mpr perm)

end Declaration

namespace Subject

/-! ## What the pages of a subject are for -/

/-- The declarations of the page of a subject and of the pages below it, constructors aside. -/
def ownDeclarations : Subject → List Declaration
  | .module decl => decl.ownDeclarations
  | .allTypes _ => []
  | .package decl => (Declaration.package decl).ownWithin
  | .classlikes group | .enumEntries group => group.flatMap ownWithin
  | .members group => group

private theorem forms_flatMap_ownWithin_group {group : List Declaration}
    {holds : Declaration → Bool}
    (kinds : ∀ declaration ∈ group, declaration.isInheritedMember = false ∧
      (holds declaration = false → declaration.ownMembers = [])) :
    forms (group.flatMap ownWithin) =
      forms group + forms ((group.filter holds).flatMap ownMembers) := by
  induction group with
  | nil => rfl
  | cons head tail ih =>
      obtain ⟨notInherited, noMembers⟩ := kinds head List.mem_cons_self
      have rest := ih fun declaration member => kinds declaration (List.mem_cons_of_mem _ member)
      rw [List.flatMap_cons, forms_append, rest, ownWithin_eq, notInherited, forms_cons head tail]
      cases holder : holds head with
      | true =>
          rw [List.filter_cons_of_pos holder, List.flatMap_cons, forms_append]
          simp only [Bool.false_eq_true, if_false, forms_append]
          abel
      | false =>
          rw [List.filter_cons_of_neg (by simp [holder]), noMembers holder]
          simp only [Bool.false_eq_true, if_false, List.append_nil]
          abel

/-- The pages of a subject are for its declarations and for what its holders declare. -/
theorem forms_ownDeclarations {subject : Subject} (proper : subject.IsProper)
    (notModule : ∀ decl, subject ≠ .module decl) :
    forms subject.ownDeclarations =
      forms subject.declarations + forms (subject.holders.flatMap ownMembers) := by
  cases subject with
  | module decl => exact absurd rfl (notModule decl)
  | allTypes | members => simp [ownDeclarations, declarations, holders]
  | package decl =>
      rw [ownDeclarations, ownWithin_eq, forms_append]
      simp [declarations, holders, isInheritedMember]
  | classlikes group =>
      refine forms_flatMap_ownWithin_group fun declaration member => ?_
      have kind := proper declaration member
      cases declaration <;> simp_all [isClasslike, isTypeAlias, isInheritedMember, ownMembers,
        memberTypes, memberFunctions, memberProperties, Declaration.enumEntries]
  | enumEntries group =>
      refine forms_flatMap_ownWithin_group fun declaration member => ?_
      have kind := proper declaration member
      cases declaration <;> simp_all [isEnumEntry, isInheritedMember]

end Subject

namespace Arrangement

variable (arrangement : Arrangement)

private theorem flatMap_ownDeclarations_members (groups : List (List Declaration)) :
    (groups.map Subject.members).flatMap Subject.ownDeclarations = groups.flatten := by
  rw [List.flatMap_map]
  exact List.flatMap_id'

private theorem flatMap_ownDeclarations_groups {place : List Declaration → Subject}
    (holds : ∀ group, (place group).ownDeclarations = group.flatMap ownWithin)
    (groups : List (List Declaration)) :
    (groups.map place).flatMap Subject.ownDeclarations = groups.flatten.flatMap ownWithin := by
  rw [List.flatMap_map, ← List.flatMap_id', List.flatMap_assoc]
  exact List.flatMap_congr fun group _ => holds group

private theorem flatMap_ownDeclarations_constructors (constructors : List Declaration) :
    (constructors.map fun constructor => Subject.members [constructor]).flatMap
      Subject.ownDeclarations = constructors := by
  rw [List.flatMap_map]
  exact List.flatMap_singleton' constructors

private theorem forms_groups (siblings : List Declaration) :
    forms (arrangement.groups siblings).flatten = forms siblings :=
  forms_eq_iff.mpr (arrangement.flatten_groups_perm siblings)

/-- The pages of the members of a page are for its constructors and for what its holders declare. -/
theorem forms_memberPages (subject : Subject) :
    forms ((arrangement.memberPages subject).flatMap Subject.ownDeclarations) =
      forms subject.constructors + forms (subject.holders.flatMap ownMembers) := by
  have onTypes : ∀ groups : List (List Declaration),
      (groups.map Subject.classlikes).flatMap Subject.ownDeclarations =
        groups.flatten.flatMap ownWithin := flatMap_ownDeclarations_groups fun _ => rfl
  have onEntries : ∀ groups : List (List Declaration),
      (groups.map Subject.enumEntries).flatMap Subject.ownDeclarations =
        groups.flatten.flatMap ownWithin := flatMap_ownDeclarations_groups fun _ => rfl
  have types := forms_flatMap_ownWithin
    (arrangement.flatten_typeGroups_perm (subject.holders.flatMap memberTypes))
  have entries := forms_flatMap_ownWithin
    (arrangement.flatten_groups_perm (subject.holders.flatMap enumEntries))
  have members : forms (subject.holders.flatMap ownMembers) =
      forms ((subject.holders.flatMap memberTypes).flatMap ownWithin) +
        forms ((subject.holders.flatMap enumEntries).flatMap ownWithin) +
          forms ((subject.holders.flatMap memberFunctions).filter (!·.isInherited)) +
            forms ((subject.holders.flatMap memberProperties).filter (!·.isInherited)) := by
    rw [List.flatMap_assoc, List.flatMap_assoc, List.filter_flatMap, List.filter_flatMap,
      ← forms_flatMap_append, ← forms_flatMap_append, ← forms_flatMap_append]
    rfl
  rw [members, memberPages, scopeSubjects, memberSubjects, memberSubjects]
  simp only [List.flatMap_append, forms_append, flatMap_ownDeclarations_constructors,
    onTypes, onEntries, flatMap_ownDeclarations_members, forms_groups, Members.ofDeclarations,
    types, entries]
  abel

end Arrangement

/-! ## Pages -/

namespace Subject

private theorem documented_page (subject : Subject) (content : Content.Node)
    (children : List Page) :
    (subject.page content children).documented =
      (if subject.kind = .module then [] else subject.declarations) ++
        children.flatMap Page.documented := by
  rw [Page.documented, Page.all_eq, List.filter_cons, List.filter_flatMap]
  have rest : ((subject.page content children).children.flatMap fun child =>
      child.all.filter Page.isForDeclarations).flatMap Page.declarations =
        children.flatMap Page.documented := List.flatMap_assoc
  cases subject with
  | module | allTypes => exact rest
  | package | classlikes | enumEntries | members => exact congrArg (_ ++ ·) rest

private theorem ownConstructors_page {subject : Subject} (proper : subject.IsProper)
    (content : Content.Node) (children : List Page) :
    (subject.page content children).ownConstructors = subject.constructors := by
  cases subject with
  | module | allTypes | package | members => rfl
  | classlikes group =>
      rw [constructors, shownConstructors_eq, Page.ownConstructors]
      cases isHidden : group.any isAnnotationClass <;>
        simp [page, kind, declarations, isHidden]
  | enumEntries group =>
      have none : group.flatMap Declaration.constructors = [] := by
        rw [List.flatMap_eq_nil_iff]
        intro declaration member
        have isEntry := proper declaration member
        cases declaration <;> simp_all [isEnumEntry, Declaration.constructors]
      simp [page, Page.ownConstructors, declarations, constructors, none]

private theorem documentedConstructors_page {subject : Subject} (proper : subject.IsProper)
    (content : Content.Node) (children : List Page) :
    (subject.page content children).documentedConstructors =
      subject.constructors ++ children.flatMap Page.documentedConstructors := by
  rw [Page.documentedConstructors, Page.all_eq, List.flatMap_cons, ownConstructors_page proper]
  exact congrArg (_ ++ ·) List.flatMap_assoc

end Subject

/-- The page tree of a subject documents what it is for and the constructors of its classes. -/
private def Documents (subject : Subject) (page : Page) : Prop :=
  forms page.documented = forms subject.ownDeclarations + forms page.documentedConstructors

private theorem forms_flatMap_documented {subjects : List Subject} {pages : List Page}
    (documents : List.Forall₂ Documents subjects pages) :
    forms (pages.flatMap Page.documented) =
      forms (subjects.flatMap Subject.ownDeclarations) +
        forms (pages.flatMap Page.documentedConstructors) := by
  induction documents with
  | nil => rfl
  | @cons subject page subjects pages first rest ih =>
      have firstForms : forms page.documented = _ := first
      simp only [List.flatMap_cons, forms_append, ih, firstForms]
      abel

namespace PageMaker

variable (maker : PageMaker)

private theorem flatMap_ownDeclarations_below_module (decl : ModuleDecl) :
    (maker.below (.module decl)).flatMap Subject.ownDeclarations = decl.ownDeclarations := by
  have listing : (if maker.listsAllTypes decl then [Subject.allTypes decl] else []).flatMap
      Subject.ownDeclarations = [] := by
    cases maker.listsAllTypes decl <;> rfl
  rw [Arrangement.below, List.flatMap_append, listing, List.append_nil, List.flatMap_map,
    ModuleDecl.ownDeclarations, ModuleDecl.declarations, List.filter_flatMap]
  rfl

private theorem documents_page {subject : Subject} (content : Content.Node) {children : List Page}
    (proper : subject.IsProper)
    (documents : List.Forall₂ Documents (maker.below subject) children) :
    Documents subject (subject.page content children) := by
  have below := forms_flatMap_documented documents
  rw [Documents, Subject.documented_page, Subject.documentedConstructors_page proper, forms_append,
    forms_append, below]
  by_cases isModule : ∃ decl, subject = .module decl
  · obtain ⟨decl, rfl⟩ := isModule
    rw [flatMap_ownDeclarations_below_module]
    simp [Subject.kind, Subject.ownDeclarations, Subject.constructors]
  · have notModule : ∀ decl, subject ≠ .module decl := fun decl same => isModule ⟨decl, same⟩
    have isBelow : maker.below subject = maker.memberPages subject := by
      rw [Arrangement.below_eq]
      cases subject with
      | module decl => exact absurd rfl (notModule decl)
      | allTypes | package | classlikes | enumEntries | members => rfl
    have notModuleKind : subject.kind ≠ .module := by
      cases subject <;> simp_all [Subject.kind]
    rw [isBelow, Arrangement.forms_memberPages, Subject.forms_ownDeclarations proper notModule,
      if_neg notModuleKind]
    abel

private theorem documents_of_build {decl : ModuleDecl} {session : Session} {page : Page}
    (built : ((maker.build (.module decl)).run.run session).1 = .ok page) :
    Documents (.module decl) page := by
  have content : ∀ subject : Subject, subject.IsProper →
      EnsuresUnlessFailed (fun _ => True) (maker.content subject) fun _ => True :=
    fun subject _ => (ensures_true _).weaken fun _ _ _ _ => trivial
  have ensures := maker.ensures_build
    (fun subject _ placed member => maker.isProper_of_places (maker.places_of_mem_below member))
    content (fun subject dri content children proper _ _ documents =>
      maker.documents_page content proper documents)
    (Subject.hasDri_module decl) trivial
  exact (ensures session trivial).1 page built

/-- A constructor that is documented is one of a class on a page. -/
private theorem exists_of_mem_documentedConstructors {page : Page} {constructor : Declaration}
    (member : constructor ∈ page.documentedConstructors) :
    ∃ type ∈ page.documented, constructor ∈ type.constructors := by
  obtain ⟨reached, inTree, isOwn⟩ := List.mem_flatMap.mp member
  rw [Page.ownConstructors] at isOwn
  split at isOwn
  · rename_i isShown
    obtain ⟨type, onPage, isConstructor⟩ := List.mem_flatMap.mp isOwn
    have isFor : reached.isForDeclarations := by simp [Page.isForDeclarations, isShown.1]
    exact ⟨type, List.mem_flatMap.mpr ⟨reached, List.mem_filter.mpr ⟨inTree, isFor⟩, onPage⟩,
      isConstructor⟩
  · exact (List.not_mem_nil isOwn).elim

/-- If the pages of a module are built, its own declarations and the constructors of its classes, as
far as their page holds no annotation class, are on its pages with the same multiplicities, and
every declaration on a page is one of them. -/
theorem forms_documented_of_build {decl : ModuleDecl} {session : Session} {page : Page}
    (built : ((maker.build (.module decl)).run.run session).1 = .ok page) :
    forms page.documented = forms decl.ownDeclarations + forms page.documentedConstructors ∧
      ∀ declaration ∈ page.documented, ∃ source, source.unrenamed = declaration.unrenamed ∧
        (source ∈ decl.ownDeclarations ∨
          ∃ type ∈ decl.declarations, source ∈ type.constructors) := by
  have same : forms page.documented =
      forms decl.ownDeclarations + forms page.documentedConstructors :=
    maker.documents_of_build built
  have sources : ∀ declaration ∈ page.documented,
      (∃ source ∈ decl.ownDeclarations, source.unrenamed = declaration.unrenamed) ∨
        ∃ source ∈ page.documentedConstructors, source.unrenamed = declaration.unrenamed := by
    intro declaration member
    have counted : declaration.unrenamed ∈ forms page.documented :=
      Multiset.mem_coe.mpr (List.mem_map_of_mem member)
    rw [same, Multiset.mem_add] at counted
    exact counted.imp List.mem_map.mp List.mem_map.mp
  refine ⟨same, fun declaration member => ?_⟩
  rcases sources declaration member with ⟨source, isOwn, equal⟩ | ⟨source, isConstructor, equal⟩
  · exact ⟨source, equal, .inl isOwn⟩
  · obtain ⟨type, onPage, inType⟩ := exists_of_mem_documentedConstructors isConstructor
    refine ⟨source, equal, .inr ?_⟩
    rw [← constructors_unrenamed] at inType
    rcases sources type onPage with ⟨declared, isOwn, sameType⟩ | ⟨other, isOther, sameType⟩
    · rw [← sameType, constructors_unrenamed] at inType
      exact ⟨declared, (List.mem_filter.mp isOwn).1, inType⟩
    · obtain ⟨holder, -, inHolder⟩ := exists_of_mem_documentedConstructors isOther
      have callable := isFunction_of_mem_constructors inHolder
      rw [← sameType, constructors_unrenamed] at inType
      cases other <;> simp_all [isFunction, constructors]

/-- The pages of the module document its package, types, entry, own function and constructor once,
though the class is renamed apart from the type alias that implements it. -/
theorem forms_documented_of_build_shapes :
    ∃ page session,
      ((shapes.pageMaker {} []).build (.module shapes)).run.run {} = (.ok page, session) ∧
      forms page.documented = forms shapes.ownDeclarations + forms page.documentedConstructors ∧
      ∀ declaration ∈ page.documented, ∃ source, source.unrenamed = declaration.unrenamed ∧
        (source ∈ shapes.ownDeclarations ∨
          ∃ type ∈ shapes.declarations, source ∈ type.constructors) := by
  obtain ⟨page, session, built⟩ := exists_page_shapes {}
  have documented :=
    forms_documented_of_build (shapes.pageMaker {} []) (congrArg Prod.fst built)
  exact ⟨page, session, built, documented⟩

end PageMaker

end DocPages
