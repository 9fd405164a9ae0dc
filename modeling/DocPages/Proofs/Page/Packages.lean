import DocPages.Proofs.Collection.Comparison
import DocPages.Proofs.Page.Sources
import Mathlib.Data.List.Perm.Basic

/-!
# Independent packages

The pages of all packages of a module are built in one session. If sources of one key have one
signature, no page shows what was built before it: the page of a module is composed of the pages
that its packages have in fresh sessions. The order of the packages then decides the order of their
pages, and beyond that only the order in which the page of a module lists packages of one name and
the page of all types lists types of one name.
-/

namespace DocPages

open Content Declaration Build

namespace PageMaker

variable (maker : PageMaker)

/-- The page of a subject in a fresh session. -/
def fresh (subject : Subject) : Except Failure Page := ((maker.build subject).run.run {}).1

/-- The content of the page of a subject in a fresh session. -/
def freshContent (subject : Subject) : Except Failure Content.Node :=
  ((maker.content subject).run.run {}).1

/-- The page of all types of a module in a fresh session. -/
def allTypesPage (decl : ModuleDecl) : Page :=
  (Subject.allTypes decl).page ((maker.allTypesContent decl).run {}).1 []

/-- The page of a module in a fresh session, given those of its packages. -/
def modulePage (decl : ModuleDecl) (pages : List Page) : Page :=
  (Subject.module decl).page ((maker.moduleContent decl).run {}).1
    (pages ++ if maker.listsAllTypes decl then [maker.allTypesPage decl] else [])

/-! ## Fresh pages -/

theorem kind_of_fresh {subject : Subject} {dri : Dri} (hasDri : subject.HasDri dri) {page : Page}
    (made : maker.fresh subject = .ok page) : page.kind = subject.kind := by
  have content : ∀ subject, True →
      EnsuresUnlessFailed (fun _ => True) (maker.content subject) fun _ => True := fun _ _ =>
    (ensures_true _).weaken fun _ _ _ _ => trivial
  have step : ∀ (subject : Subject) (dri : Dri) (content : Content.Node) (children : List Page),
      True → subject.HasDri dri → True →
      List.Forall₂ (fun placed child => Page.kind child = placed.kind) (maker.below subject)
        children →
        (subject.page content children).kind = subject.kind := fun _ _ _ _ _ _ _ _ => rfl
  exact (maker.ensures_build (fun _ _ _ _ => trivial) content step hasDri trivial {} trivial).1 page
    made

section

variable {decl : ModuleDecl} (agree : SignaturesAgree decl.sources)
  (renders : ∀ renderer ∈ maker.renderers,
    renderer.Obeys (settling (Session.CachesFrom decl.sources)))

include agree renders

/-- In every session that caches signatures of the module alone, a page is built as in a fresh
one. -/
theorem settlesTo_fresh {subject : Subject} {dri : Dri} (hasDri : subject.HasDri dri)
    (sourced : subject.IsSourced decl) :
    SettlesTo (Session.CachesFrom decl.sources) (maker.build subject) (maker.fresh subject) := by
  refine settlesTo_of_settling ?_ (Session.cachesFrom_fresh decl.sources)
  refine maker.allows_build composes_settling renders maker.isSourced_of_mem_below ?_ hasDri sourced
  exact fun _ isSourced _ member =>
    obeys_signature agree (isSourced.isAmong_of_mem_requested member)

/-- A page is composed of the fresh pages directly below it and its own content. -/
theorem fresh_eq {subject : Subject} {dri : Dri} (hasDri : subject.HasDri dri)
    (sourced : subject.IsSourced decl) :
    maker.fresh subject = do
      let children ← (maker.below subject).mapM maker.fresh
      let content ← maker.freshContent subject
      return subject.page content children := by
  have children : SettlesTo (Session.CachesFrom decl.sources)
      ((maker.below subject).mapM maker.build) ((maker.below subject).mapM maker.fresh) := by
    refine settlesTo_mapM fun placed member => ?_
    obtain ⟨placedDri, placedHasDri⟩ := maker.hasDri_of_places (maker.places_of_mem_below member)
    exact maker.settlesTo_fresh agree renders placedHasDri
      (maker.isSourced_of_mem_below subject sourced placed member)
  have content : SettlesTo (Session.CachesFrom decl.sources) (maker.content subject)
      (maker.freshContent subject) :=
    settlesTo_of_settling
      (maker.allows_content composes_settling renders fun declaration member =>
        obeys_signature agree (sourced.isAmong_of_mem_requested member))
      (Session.cachesFrom_fresh decl.sources)
  have whole : SettlesTo (Session.CachesFrom decl.sources) (maker.build subject) (do
      let children ← (maker.below subject).mapM maker.fresh
      let content ← maker.freshContent subject
      return subject.page content children) := by
    rw [build_eq, hasDri.problems_eq_nil, List.forM_eq_forM, List.forM_nil, pure_bind]
    exact children.bind fun pages => content.bind fun node =>
      settlesTo_pure (subject.page node pages)
  exact (whole {} (Session.cachesFrom_fresh decl.sources)).1

/-- The page of a module is composed of the fresh pages of its packages. -/
theorem fresh_module :
    maker.fresh (.module decl) =
      (decl.packages.mapM fun package => maker.fresh (.package package)).map
        (maker.modulePage decl) := by
  have listing : maker.fresh (.allTypes decl) = .ok (maker.allTypesPage decl) := by
    have hasDri : (Subject.allTypes decl).HasDri .allTypes :=
      ⟨rfl, fun _ member => (List.not_mem_nil member).elim⟩
    have sourced : (Subject.allTypes decl).IsSourced decl :=
      ⟨trivial, fun _ equality => nomatch equality⟩
    rw [maker.fresh_eq agree renders hasDri sourced]
    rfl
  have listings :
      (if maker.listsAllTypes decl then [Subject.allTypes decl] else []).mapM maker.fresh =
        .ok (if maker.listsAllTypes decl then [maker.allTypesPage decl] else []) := by
    split
    · rw [List.mapM_cons, listing]
      rfl
    · rfl
  rw [maker.fresh_eq agree renders (Subject.hasDri_module decl) (Subject.isSourced_module decl),
    Arrangement.below_eq, List.mapM_append, List.mapM_map, listings]
  change (decl.packages.mapM (fun package => maker.fresh (.package package)) >>= _) >>= _ = _
  cases decl.packages.mapM fun package => maker.fresh (.package package) <;> rfl

/-- The page of a module is made exactly if those of its packages are. -/
theorem fresh_module_eq_ok_iff {page : Page} :
    maker.fresh (.module decl) = .ok page ↔
      ∃ pages, List.Forall₂ (fun package child => maker.fresh (.package package) = .ok child)
        decl.packages pages ∧ page = maker.modulePage decl pages := by
  rw [maker.fresh_module agree renders]
  simp only [← mapM_eq_ok_iff]
  cases decl.packages.mapM fun package => maker.fresh (.package package) <;>
    simp [Except.map, eq_comm]

end

end PageMaker

/-! ## Reordered packages -/

namespace Content.Fragment

/-- A sorted block shows every order of elements with different names in one way. -/
theorem block_eq_of_perm {α : Type} (subject : α → RowSubject) {elements others : List α}
    (perm : elements.Perm others)
    (distinct : (elements.map fun element => (subject element).name).Nodup)
    (title : String) (level : Nat) (kind : Kind) {settings : BlockSettings}
    (sorted : settings.sorted) (body : α → Fragment Build) :
    block title level kind elements subject settings body =
      block title level kind others subject settings body := by
  have laws : Std.TransCmp fun left right =>
      compareAbsentLast compareAlphabetically (subject left).name (subject right).name :=
    transCmp_on inferInstance fun element => (subject element).name
  rw [block, block, if_pos sorted, if_pos sorted]
  rw [sortBy_eq_of_perm_of_distinct perm fun first isFirst second isSecond equal =>
    List.inj_on_of_nodup_map distinct isFirst isSecond (Std.LawfulEqCmp.eq_of_compare equal)]

end Content.Fragment

/-- Lists of the same elements have sets that contain the same. -/
theorem OrderedSet.contains_ofList_congr {α : Type} [Ord α] [DecidableEq α] {left right : List α}
    (same : ∀ element, element ∈ left ↔ element ∈ right) (element : α) :
    (ofList left).contains element = (ofList right).contains element := by
  rw [Bool.eq_iff_iff, contains, contains, List.any_eq_true, List.any_eq_true]
  simp only [mem_ofList, same]

/-- The types of all packages of a module. -/
def ModuleDecl.types (decl : ModuleDecl) : List Declaration :=
  decl.packages.flatMap fun package => (Declaration.package package).memberTypes

theorem Declaration.standaloneTypes_perm {types others : List Declaration}
    (perm : types.Perm others) : (standaloneTypes types).Perm (standaloneTypes others) := by
  have sameExpected : ∀ dri,
      (expectedDris types).contains dri = (expectedDris others).contains dri :=
    OrderedSet.contains_ofList_congr fun dri => (perm.filterMap _).mem_iff
  have sameAliases : isActualAlias types = isActualAlias others := by
    funext type
    rw [isActualAlias, isActualAlias, sameExpected]
  rw [standaloneTypes, standaloneTypes, sameAliases]
  exact perm.filter _

namespace ModuleDecl

variable {decl : ModuleDecl} {packages : List PackageDecl} (perm : packages.Perm decl.packages)

include perm

/-- Reordered packages hold the same sources. -/
theorem signaturesAgree_of_perm (agree : SignaturesAgree decl.sources) :
    SignaturesAgree { decl with packages }.sources := by
  have same : ({ decl with packages } : ModuleDecl).sources.Perm decl.sources :=
    (perm.flatMap_right _).flatMap_right _
  exact fun first isFirst second isSecond =>
    agree first (same.mem_iff.mp isFirst) second (same.mem_iff.mp isSecond)

end ModuleDecl

namespace PageMaker

variable (maker : PageMaker) {decl : ModuleDecl} {packages : List PackageDecl}
  (perm : packages.Perm decl.packages)

include perm

private theorem listsAllTypes_of_perm :
    maker.listsAllTypes { decl with packages } = maker.listsAllTypes decl := by
  rw [Arrangement.listsAllTypes, Arrangement.listsAllTypes, perm.any_eq]

/-- The page of a module lists packages of different names in one way. -/
private theorem moduleContent_of_perm (distinct : (decl.packages.map (·.common.name)).Nodup) :
    maker.moduleContent { decl with packages } = maker.moduleContent decl := by
  rw [moduleContent, moduleContent, maker.listsAllTypes_of_perm perm]
  rw [Fragment.block_eq_of_perm _ perm.symm distinct]
  · rfl
  · rfl

/-- The page of all types lists types of different names in one way. -/
private theorem allTypesContent_of_perm
    (distinct : ((standaloneTypes decl.types).map name?).Nodup) :
    maker.allTypesContent { decl with packages } = maker.allTypesContent decl := by
  rw [ModuleDecl.types] at distinct
  simp only [allTypesContent]
  rw [Fragment.block_eq_of_perm rowSubject (standaloneTypes_perm (perm.flatMap_right _)).symm
    distinct]
  · rfl
  · rfl

/-- What the page of a module shows beside its children does not depend on the order of packages
with different names. -/
private theorem modulePage_of_perm (distinct : (decl.packages.map (·.common.name)).Nodup)
    (others pages : List Page) :
    { maker.modulePage { decl with packages } others with children := [] } =
      { maker.modulePage decl pages with children := [] } := by
  rw [modulePage, modulePage, maker.moduleContent_of_perm perm distinct]
  rfl

/-- The page of all types does not depend on the order of packages if its types have different
names. -/
private theorem allTypesPage_of_perm
    (distinct : ((standaloneTypes decl.types).map name?).Nodup) :
    maker.allTypesPage { decl with packages } = maker.allTypesPage decl := by
  rw [allTypesPage, allTypesPage, maker.allTypesContent_of_perm perm distinct]
  rfl

/-- The children of the page of a module that are not for a package do not depend on the order of
packages if types of different packages have different names. -/
private theorem children_modulePage_of_perm
    (distinct : maker.listsAllTypes decl → ((standaloneTypes decl.types).map name?).Nodup)
    {others pages : List Page} (same : others.Perm pages) :
    (maker.modulePage { decl with packages } others).children.Perm
      (maker.modulePage decl pages).children := by
  change (others ++ _).Perm (pages ++ _)
  rw [maker.listsAllTypes_of_perm perm]
  split
  · rename_i listed
    rw [maker.allTypesPage_of_perm perm (distinct listed)]
    exact same.append_right _
  · exact same.append_right _

omit perm in
private theorem filter_children_modulePage {pages : List Page}
    (packagePages : ∀ page ∈ pages, page.kind = .package) :
    (maker.modulePage decl pages).children.filter (·.kind = .package) = pages := by
  change (pages ++ _).filter _ = pages
  have noListing : (if maker.listsAllTypes decl then [maker.allTypesPage decl] else []).filter
      (·.kind = .package) = [] := by
    split <;> rfl
  rw [List.filter_append, noListing, List.append_nil, List.filter_eq_self]
  simpa using packagePages

end PageMaker

/-! ## Modules -/

/-- If sources of one key have one signature and the page of a module can be made, each child for a
package is the page that the package has in a fresh session. The page can then be made for every
order of the packages, and their pages are reordered. So are all children, unless the page of all
types lists several types of one name, and the rest of the page stays the same unless several
packages have one name. -/
theorem PageMaker.packages_of_fresh (settings : Settings) (registry : Registry) {decl : ModuleDecl}
    (agree : SignaturesAgree decl.sources) {page : Page}
    (made : fresh { settings, registry } (.module decl) = .ok page) :
    let maker : PageMaker := { settings, registry }
    (∀ (index : Nat) (package : PackageDecl), decl.packages[index]? = some package →
      ∃ child, page.children[index]? = some child ∧ maker.fresh (.package package) = .ok child) ∧
    ∀ packages : List PackageDecl, packages.Perm decl.packages →
      ∃ other, maker.fresh (.module { decl with packages }) = .ok other ∧
        (other.children.filter (·.kind = .package)).Perm
          (page.children.filter (·.kind = .package)) ∧
        ((maker.listsAllTypes decl → ((standaloneTypes decl.types).map name?).Nodup) →
          other.children.Perm page.children) ∧
        ((decl.packages.map (·.common.name)).Nodup →
          { other with children := [] } = { page with children := [] }) := by
  intro maker
  have renders (sources : List Declaration) : ∀ renderer ∈ maker.renderers,
      renderer.Obeys (settling (Session.CachesFrom sources)) :=
    List.forall_mem_singleton.mpr (TagRenderer.obeys_sinceKotlin composes_settling)
  obtain ⟨pages, freshPages, rfl⟩ :=
    (maker.fresh_module_eq_ok_iff agree (renders _)).mp made
  constructor
  · intro index package isPackage
    obtain ⟨child, isChild, isFresh⟩ := exists_related_of_getElem? freshPages isPackage
    have inPages : index < pages.length := (List.getElem?_eq_some_iff.mp isChild).1
    exact ⟨child, (List.getElem?_append_left inPages).trans isChild, isFresh⟩
  · intro packages perm
    obtain ⟨others, freshOthers, samePages⟩ := List.perm_comp_forall₂ perm freshPages
    have packagePages : ∀ child ∈ pages, child.kind = .package := by
      intro child isChild
      obtain ⟨package, isPackage, isFresh⟩ := exists_related_of_mem freshPages.flip isChild
      have places : maker.Places (.module decl) (.package package) := .package isPackage
      obtain ⟨dri, hasDri⟩ := maker.hasDri_of_places places
      exact maker.kind_of_fresh hasDri isFresh
    refine ⟨maker.modulePage { decl with packages } others, ?_, ?_, ?_, ?_⟩
    · exact (maker.fresh_module_eq_ok_iff (ModuleDecl.signaturesAgree_of_perm perm agree)
        (renders _)).mpr ⟨others, freshOthers, rfl⟩
    · rw [filter_children_modulePage maker packagePages, filter_children_modulePage maker
        fun child isOther => packagePages child (samePages.mem_iff.mp isOther)]
      exact samePages
    · exact fun distinct => maker.children_modulePage_of_perm perm distinct samePages
    · exact fun distinct => maker.modulePage_of_perm perm distinct others pages

/-- A module with two packages that hold a class of one name each. -/
def namesakes : ModuleDecl :=
  let common : SourceSetId := ⟨"boxes", "common"⟩
  let package (name : String) : PackageDecl :=
    { common := { dri := .ofPackage name, name := some name, sourceSets := .singleton common }
      classlikes :=
        [{ common :=
            { dri := .ofClass name "Box", name := some "Box", sourceSets := .singleton common } }] }
  { name := "boxes", packages := [package "closed", package "open"]
    sourceSets := [⟨common, "common", .common⟩] }

namespace PageMaker

private theorem signaturesAgree_namesakes : SignaturesAgree namesakes.sources :=
  signaturesAgree_of_nodup (by decide)

/-- The second package has the page that it has alone, and reversing the packages reorders their
pages. -/
theorem packages_of_fresh_namesakes :
    ∃ page package child other,
      (namesakes.pageMaker {} []).fresh (.module namesakes) = .ok page ∧
      namesakes.packages[1]? = some package ∧ page.children[1]? = some child ∧
      (namesakes.pageMaker {} []).fresh (.package package) = .ok child ∧
      (namesakes.pageMaker {} []).fresh
        (.module { namesakes with packages := namesakes.packages.reverse }) = .ok other ∧
      other.children.Perm page.children := by
  have succeeds : ((namesakes.pageMaker {} []).fresh (.module namesakes)).toOption.isSome := by
    decide +kernel
  obtain ⟨page, isPage⟩ := Option.isSome_iff_exists.mp succeeds
  have made := eq_ok_of_toOption isPage
  obtain ⟨fresh, reordered⟩ :=
    packages_of_fresh {} (.ofList namesakes.sourceSets) signaturesAgree_namesakes made
  obtain ⟨child, isChild, isFresh⟩ := fresh 1 _ rfl
  obtain ⟨other, otherMade, -, permuted, -⟩ := reordered _ namesakes.packages.reverse_perm
  exact ⟨page, _, child, other, made, rfl, isChild, isFresh, otherMade, permuted nofun⟩

/-- The page of all types lists both classes in the order of their packages, so that reversing the
packages changes it. -/
theorem exists_not_perm_children :
    ∃ (settings : Settings) (registry : Registry) (decl : ModuleDecl)
      (packages : List PackageDecl) (page other : Page),
      SignaturesAgree decl.sources ∧ packages.Perm decl.packages ∧
        fresh { settings, registry } (.module decl) = .ok page ∧
          fresh { settings, registry } (.module { decl with packages }) = .ok other ∧
            ¬other.children.Perm page.children := by
  let maker := namesakes.pageMaker { listAllTypes := true } []
  have differ : ((maker.fresh (.module namesakes)).toOption.bind fun page =>
      (maker.fresh (.module { namesakes with packages := namesakes.packages.reverse })).toOption.map
        fun other => decide ((other.children.map (·.content.links)).Perm
          (page.children.map (·.content.links)))) = some false := by
    decide +kernel
  obtain ⟨page, isPage, compared⟩ := Option.bind_eq_some_iff.mp differ
  obtain ⟨other, isOther, differs⟩ := Option.map_eq_some_iff.mp compared
  exact ⟨{ listAllTypes := true }, .ofList namesakes.sourceSets, namesakes,
    namesakes.packages.reverse, page, other, signaturesAgree_namesakes,
    namesakes.packages.reverse_perm, eq_ok_of_toOption isPage, eq_ok_of_toOption isOther,
    fun perm => of_decide_eq_false differs (perm.map _)⟩

end PageMaker

end DocPages
