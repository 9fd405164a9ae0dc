import DocPages.Collection.Elementwise
import DocPages.Proofs.Exchange.Names
import DocPages.Proofs.Page.Extensions
import DocPages.Proofs.Page.Navigation

/-!
# Failures

A step fails in the same way in every session, and the first failure of a sequence of steps ends it.
The contents of pages are made from the leaves of the page tree to its root, and only the extensions
of classes can make them fail, so a build fails with the first extension in that order that is
neither a function nor a property.
-/

namespace DocPages

open Declaration

/-- The failure that an outcome is, if it is one. -/
def failureOf? {α : Type} : Except Failure α → Option Failure
  | .error failure => some failure
  | .ok _ => none

theorem failureOf?_eq_some_iff {α : Type} {outcome : Except Failure α} {failure : Failure} :
    failureOf? outcome = some failure ↔ outcome = .error failure := by
  cases outcome <;> simp [failureOf?]

theorem failureOf?_eq_none_iff {α : Type} {outcome : Except Failure α} :
    failureOf? outcome = none ↔ ∃ value, outcome = .ok value := by
  cases outcome <;> simp [failureOf?]

namespace Build

variable {α β : Type}

/-- In every session the step fails with the failure, or succeeds if there is none. -/
def FailsWith (step : ExceptT Failure Build α) (failure : Option Failure) : Prop :=
  ∀ session, failureOf? (step.run.run session).1 = failure

theorem failsWith_pure (value : α) : FailsWith (pure value) none := fun _ => rfl

/-- A step that cannot fail as one that can. -/
theorem failsWith_lift (step : Build α) : FailsWith (liftM step) none := fun _ => rfl

theorem failsWith_check (outcome : Except Failure α) :
    FailsWith (ExceptT.mk (pure outcome)) (failureOf? outcome) := fun _ => rfl

/-- A sequence of steps fails if the first one fails, or else if the others do. -/
theorem FailsWith.bind {step : ExceptT Failure Build α} {next : α → ExceptT Failure Build β}
    {first second : Option Failure} (fails : FailsWith step first)
    (nextFails : ∀ value, FailsWith (next value) second) :
    FailsWith (step >>= next) (first.or second) := by
  intro session
  have outcome := fails session
  rw [ExceptT.run_bind, StateT.run_bind]
  cases run : step.run.run session with
  | mk result later =>
      rw [run] at outcome
      cases result with
      | error failure =>
          rw [← outcome]
          rfl
      | ok value =>
          rw [← outcome]
          exact nextFails value later

/-- The steps of a list fail with the first failure among them. -/
theorem failsWith_mapM {elements : List α} {step : α → ExceptT Failure Build β}
    {failure : α → Option Failure}
    (each : ∀ element ∈ elements, FailsWith (step element) (failure element)) :
    FailsWith (elements.mapM step) (elements.findSome? failure) := by
  induction elements with
  | nil => exact failsWith_pure []
  | cons head tail ih =>
      obtain ⟨headFails, tailFails⟩ := List.forall_mem_cons.mp each
      have rest := ih tailFails
      rw [List.mapM_cons]
      have whole := headFails.bind fun first =>
        rest.bind fun others => failsWith_pure (first :: others)
      rw [Option.or_none] at whole
      rw [List.findSome?_cons]
      cases failed : failure head <;> simpa [failed] using whole

end Build

open Build

/-! ## The order of contents -/

namespace PagePlan

mutual

/-- The subjects of a plan in the order in which their contents are made, one after those below
it. -/
def buildOrder : PagePlan → List Subject
  | ⟨subject, children⟩ => buildOrderOfList children ++ [subject]

/-- The subjects of the plans of a list in the order in which their contents are made. -/
def buildOrderOfList : List PagePlan → List Subject
  | [] => []
  | head :: tail => buildOrder head ++ buildOrderOfList tail

end

private theorem buildOrderOfList_eq (plans : List PagePlan) :
    buildOrderOfList plans = plans.flatMap buildOrder :=
  eq_flatMap_of_cons (by rw [buildOrderOfList]) (fun _ _ => by rw [buildOrderOfList]) plans

end PagePlan

namespace Arrangement

variable (arrangement : Arrangement)

/-- The subjects of the pages of a subject in the order in which their contents are made. -/
def buildOrder (subject : Subject) : List Subject := (arrangement.plan subject).buildOrder

/-- The content of a page is made after those of the pages below it. -/
theorem buildOrder_eq (subject : Subject) :
    arrangement.buildOrder subject =
      (arrangement.below subject).flatMap arrangement.buildOrder ++ [subject] := by
  rw [buildOrder, plan_eq, PagePlan.buildOrder, PagePlan.buildOrderOfList_eq, List.flatMap_map]
  rfl

/-- What passes from a page to those directly below it passes to all whose contents are made. -/
theorem forall_mem_buildOrder {eligible : Subject → Prop}
    (below : ∀ subject, eligible subject → ∀ placed ∈ arrangement.below subject, eligible placed)
    {subject : Subject} (isEligible : eligible subject) :
    ∀ made ∈ arrangement.buildOrder subject, eligible made := by
  induction subject using arrangement.belowInduction with
  | step subject ih =>
      intro made member
      rw [buildOrder_eq, List.mem_append, List.mem_flatMap, List.mem_singleton] at member
      rcases member with ⟨placed, isBelow, inOrder⟩ | rfl
      · exact ih placed isBelow (below subject isEligible placed isBelow) made inOrder
      · exact isEligible

end Arrangement

/-! ## Failures of contents -/

private theorem findSome?_flatMap {α β γ : Type} (elements : List α) (images : α → List β)
    (find : β → Option γ) :
    (elements.flatMap images).findSome? find =
      elements.findSome? fun element => (images element).findSome? find := by
  induction elements with
  | nil => rfl
  | cons head tail ih =>
      rw [List.flatMap_cons, List.findSome?_append, ih, List.findSome?_cons]
      cases (images head).findSome? find <;> rfl

private theorem findSome?_congr {α β : Type} {elements : List α} {first second : α → Option β}
    (same : ∀ element ∈ elements, first element = second element) :
    elements.findSome? first = elements.findSome? second := by
  induction elements with
  | nil => rfl
  | cons head tail ih =>
      obtain ⟨sameHead, sameTail⟩ := List.forall_mem_cons.mp same
      rw [List.findSome?_cons, List.findSome?_cons, sameHead, ih sameTail]

/-- The first failure of the extensions of several lists. -/
private theorem extensionFailure?_flatMap {α : Type} (elements : List α)
    (extensions : α → List Declaration) :
    extensionFailure? (elements.flatMap extensions) =
      elements.findSome? fun element => extensionFailure? (extensions element) := by
  rw [extensionFailure?, List.find?_flatMap, List.map_findSome?]
  rfl

namespace Subject

/-- The failure of the content of a page: that of the extensions of its classes. -/
def failure? : Subject → Option Failure
  | .classlikes group | .enumEntries group => failureOf? (PageMaker.checkedExtensions group)
  | .module _ | .allTypes _ | .package _ | .members _ => none

/-- The extensions that the content of a page lists. -/
def extensions : Subject → List Declaration
  | .classlikes group => listedExtensions group
  | _ => []

theorem exists_group_of_mem_extensions {subject : Subject} {extension : Declaration}
    (member : extension ∈ subject.extensions) : ∃ group, subject = .classlikes group := by
  cases subject with
  | classlikes group => exact ⟨group, rfl⟩
  | module | allTypes | package | enumEntries | members => exact (List.not_mem_nil member).elim

/-- The types of the page can be united, and it is proper. -/
structure Unites (subject : Subject) : Prop where
  proper : subject.IsProper
  oneName : ∀ group, subject = .classlikes group → HasOneName group

private theorem failureOf?_checkedExtensions {group : List Declaration}
    (oneName : HasOneName group) :
    failureOf? (PageMaker.checkedExtensions group) =
      extensionFailure? (listedExtensions group) := by
  rw [PageMaker.checkedExtensions_eq oneName]
  cases extensionFailure? (listedExtensions group) <;> rfl

/-- The content of a page whose types unite fails with the first of its extensions that is neither a
function nor a property. -/
theorem Unites.failure?_eq {subject : Subject} (unites : subject.Unites) :
    subject.failure? = extensionFailure? subject.extensions := by
  cases subject with
  | module | allTypes | package | members => rfl
  | classlikes group => exact failureOf?_checkedExtensions (unites.oneName group rfl)
  | enumEntries group =>
      have noClass : group.filter isClasslike = [] := by
        rw [List.filter_eq_nil_iff]
        intro declaration member
        have isEntry := unites.proper declaration member
        cases declaration <;> simp_all [isEnumEntry, isClasslike]
      have oneName : HasOneName group := by
        rw [HasOneName, noClass]
        exact .nil
      have fails := failureOf?_checkedExtensions oneName
      rwa [listedExtensions, noClass] at fails

end Subject

namespace PageMaker

variable (maker : PageMaker)

theorem failsWith_content (subject : Subject) :
    FailsWith (maker.content subject) subject.failure? := by
  cases subject with
  | module decl => exact failsWith_lift _
  | allTypes decl => exact failsWith_lift _
  | package decl => exact failsWith_lift _
  | members group => exact failsWith_lift _
  | classlikes group | enumEntries group =>
      have fails := (failsWith_check (checkedExtensions group)).bind fun extensions =>
        failsWith_lift (maker.typesContent extensions group)
      rwa [Option.or_none] at fails

/-- A build fails with the first failure among its contents, in the order in which they are made. -/
theorem failsWith_build {subject : Subject} {dri : Dri} (hasDri : subject.HasDri dri) :
    FailsWith (maker.build subject) ((maker.buildOrder subject).findSome? Subject.failure?) := by
  induction subject using maker.belowInduction generalizing dri with
  | step subject ih =>
      rw [build_eq, hasDri.problems_eq_nil, List.forM_eq_forM, List.forM_nil, pure_bind]
      have children := failsWith_mapM fun placed (member : placed ∈ maker.below subject) =>
        let ⟨_, placedHasDri⟩ := maker.hasDri_of_places (maker.places_of_mem_below member)
        ih placed member placedHasDri
      have whole := children.bind fun pages =>
        (maker.failsWith_content subject).bind fun content =>
          failsWith_pure (subject.page content pages)
      rw [Option.or_none] at whole
      rw [Arrangement.buildOrder_eq, List.findSome?_append, findSome?_flatMap]
      simpa using whole

end PageMaker

/-! ## Modules -/

namespace ModuleDecl

/-- The groups of types on the pages of a module without clash-aware names unite. -/
private theorem unites_of_places {decl : ModuleDecl} {arrangement : Arrangement}
    (unnamed : ∀ declaration ∈ decl.declarations, declaration.extras.clashAwareName = none)
    {subject placed : Subject} (belongs : subject.BelongsTo decl)
    (places : arrangement.Places subject placed) : placed.Unites where
  proper := arrangement.isProper_of_places places
  oneName := by
    rintro group rfl
    cases places with
    | types isGroup =>
        refine arrangement.hasOneName_of_mem_typeGroups (fun type member => ?_) isGroup
        obtain ⟨holder, isHolder, inHolder⟩ := List.mem_flatMap.mp member
        exact unnamed type
          ((belongs.isDeclaredIn_of_mem_holders isHolder).mem_of_mem_members (.inl inHolder))

/-- Generating the pages of a module fails with the first failure among their contents, in the order
in which they are made. -/
theorem failureOf?_generateWith_eq (decl : ModuleDecl) (settings : Settings)
    (renderers : List TagRenderer) :
    failureOf? (decl.generateWith settings renderers) =
      ((decl.pageMaker settings renderers).buildOrder (.module decl)).findSome?
        Subject.failure? := by
  let maker := decl.pageMaker settings renderers
  have outcome : failureOf? (decl.generateWith settings renderers) =
      failureOf? ((maker.build (.module decl)).run.run {}).1 := by
    rw [generateWith]
    change _ = failureOf? ((maker.build (.module decl)).run {}).1
    cases (maker.build (.module decl)).run {} with
    | mk result session => cases result <;> rfl
  rw [outcome]
  exact maker.failsWith_build (Subject.hasDri_module decl) {}

/-- Generating the pages of a module without clash-aware names fails with the first extension that
is neither a function nor a property, in the order in which contents are made. -/
theorem failureOf?_generateWith {decl : ModuleDecl}
    (unnamed : ∀ declaration ∈ decl.declarations, declaration.extras.clashAwareName = none)
    (settings : Settings) (renderers : List TagRenderer) :
    failureOf? (decl.generateWith settings renderers) =
      extensionFailure?
        (((decl.pageMaker settings renderers).buildOrder (.module decl)).flatMap
          Subject.extensions) := by
  let maker := decl.pageMaker settings renderers
  have below : ∀ subject : Subject, subject.Unites ∧ subject.BelongsTo decl →
      ∀ placed ∈ maker.below subject, placed.Unites ∧ placed.BelongsTo decl := by
    rintro subject ⟨-, belongs⟩ placed member
    have places := maker.places_of_mem_below member
    exact ⟨unites_of_places unnamed belongs places, Arrangement.belongsTo_of_places belongs places⟩
  have root : (Subject.module decl).Unites ∧ (Subject.module decl).BelongsTo decl := by
    refine ⟨⟨trivial, fun _ equality => ?_⟩, rfl⟩
    cases equality
  have unites : ∀ made ∈ maker.buildOrder (.module decl),
      made.failure? = extensionFailure? made.extensions := fun made inOrder =>
    (maker.forall_mem_buildOrder below root made inOrder).1.failure?_eq
  rw [failureOf?_generateWith_eq, extensionFailure?_flatMap, findSome?_congr unites]

/-- The pages of a module that is read from a text cannot be generated exactly if the page of some
group of types lists an extension that is neither a function nor a property. The failure is then
that of the first such extension in the order in which contents are made; extra properties never
conflict, and reported errors do not end the run. -/
theorem generate_fails_iff {origin text : String} {decl : ModuleDecl}
    (parsed : ModuleDecl.parse origin text = .ok decl) (settings : Settings) :
    let order := (decl.pageMaker settings []).buildOrder (.module decl)
    ((∃ failure, decl.generate settings = .error failure) ↔
      ∃ group, .classlikes group ∈ order ∧ ∃ extension ∈ listedExtensions group,
        extension.isProperty = false ∧ extension.isFunction = false) ∧
    (∀ failure, decl.generate settings = .error failure →
      ∃ extension, ((order.flatMap Subject.extensions).find? fun extension =>
          !extension.isProperty && !extension.isFunction) = some extension ∧
        failure = .unexpectedExtension extension.kindName extension.dri) ∧
    (∀ key, decl.generate settings ≠ .error (.extrasConflict key)) ∧
    ∀ name count, decl.generate settings ≠ .error (.reportedErrors name count) := by
  intro order
  have fails : failureOf? (decl.generate settings) =
      extensionFailure? (order.flatMap Subject.extensions) :=
    failureOf?_generateWith (clashAwareName_eq_none_of_parse parsed) settings []
  have first : ∀ failure, decl.generate settings = .error failure →
      ∃ extension, ((order.flatMap Subject.extensions).find? fun extension =>
          !extension.isProperty && !extension.isFunction) = some extension ∧
        failure = .unexpectedExtension extension.kindName extension.dri := by
    intro failure failed
    rw [failureOf?_eq_some_iff.mpr failed] at fails
    obtain ⟨extension, found, rfl⟩ := Option.map_eq_some_iff.mp fails.symm
    exact ⟨extension, found, rfl⟩
  refine ⟨⟨?_, ?_⟩, first, ?_, ?_⟩
  · rintro ⟨failure, failed⟩
    obtain ⟨extension, found, -⟩ := first failure failed
    obtain ⟨subject, inOrder, isListed⟩ := List.mem_flatMap.mp (List.mem_of_find?_eq_some found)
    obtain ⟨group, rfl⟩ := Subject.exists_group_of_mem_extensions isListed
    exact ⟨group, inOrder, extension, isListed, by simpa using List.find?_some found⟩
  · rintro ⟨group, inOrder, extension, isListed, noProperty, noFunction⟩
    have isMember : extension ∈ order.flatMap Subject.extensions :=
      List.mem_flatMap.mpr ⟨.classlikes group, inOrder, isListed⟩
    cases outcome : decl.generate settings with
    | error failure => exact ⟨failure, rfl⟩
    | ok generated =>
        rw [outcome] at fails
        have accepted := List.find?_eq_none.mp (Option.map_eq_none_iff.mp fails.symm) extension
          isMember
        simp [noProperty, noFunction] at accepted
  · intro key failed
    obtain ⟨extension, -, conflict⟩ := first _ failed
    cases conflict
  · intro name count failed
    obtain ⟨extension, -, reported⟩ := first _ failed
    cases reported

/-- A module with a class `Box` that lists a class among its extensions, and a class nested in it
that lists a type alias. -/
def misplacedText : String :=
  "\x7b\"name\": \"shapes\", \"packages\": [\x7b\"dri\": \x7b\x7d, \"classlikes\": [
    \x7b\"dri\": \x7b\"class_names\": \"Box\"\x7d,
      \"extra\": [\x7b\"kind\": \"callable_extensions\", \"extensions\": [
        \x7b\"documentable\": \"classlike\", \"dri\": \x7b\"class_names\": \"Handle\"\x7d\x7d]\x7d],
      \"classlikes\": [\x7b\"dri\": \x7b\"class_names\": \"Box.Lid\"\x7d,
        \"extra\": [\x7b\"kind\": \"callable_extensions\", \"extensions\": [
          \x7b\"documentable\": \"type_alias\", \"dri\": \x7b\"class_names\": \"Rim\"\x7d\x7d]
        \x7d]\x7d]\x7d]\x7d]\x7d"

/-- The nested class is built first, so that its extension ends the run. -/
theorem generate_fails_misplacedText :
    ∃ decl extension, ModuleDecl.parse "shapes.json" misplacedText = .ok decl ∧
      decl.generate {} = .error (.unexpectedExtension "type alias" { classNames := some "Rim" }) ∧
      ((((decl.pageMaker {} []).buildOrder (.module decl)).flatMap Subject.extensions).find?
        fun extension => !extension.isProperty && !extension.isFunction) = some extension ∧
      extension.kindName = "type alias" := by
  have outcome : ((((Json.tokens? misplacedText).bind (Json.assemble? [])).bind
      (ModuleDecl.ofJson false)).bind fun decl => failureOf? (decl.generate {})) =
        some (.unexpectedExtension "type alias" { classNames := some "Rim" }) := by
    rw [misplacedText, Json.tokens?_ofList]
    decide +kernel
  obtain ⟨decl, read, failed⟩ := Option.bind_eq_some_iff.mp outcome
  have parsed : ModuleDecl.parse "shapes.json" misplacedText = .ok decl := by
    rw [ModuleDecl.parse, Json.parse?, read]
  replace failed := failureOf?_eq_some_iff.mp failed
  obtain ⟨extension, found, same⟩ := (generate_fails_iff parsed {}).2.1 _ failed
  rw [Failure.unexpectedExtension.injEq] at same
  exact ⟨decl, extension, parsed, failed, found, same.1.symm⟩

end ModuleDecl

end DocPages
