import DocPages.Generation
import DocPages.Proofs.Page.Hierarchy
import DocPages.Proofs.Page.Walk
import DocPages.Proofs.Signature.Steps

/-!
# Built pages

A page is built from the pages directly below it and from its own content. What holds of a page
whenever it holds of the pages directly below it therefore holds of every page of a build that
succeeds, and an invariant that making contents keeps is kept by the whole build.
-/

namespace DocPages

/-- The page of a subject with its content and the pages below it. -/
def Subject.page (subject : Subject) (content : Content.Node) (children : List Page) : Page where
  kind := subject.kind
  name := subject.name
  content
  dris := subject.dris
  declarations := subject.declarations
  children

namespace PageMaker

open Build

variable (maker : PageMaker)

private theorem buildPlans_eq (plans : List PagePlan) :
    maker.buildPlans plans = plans.mapM maker.buildPlan := by
  induction plans with
  | nil => rfl
  | cons head tail ih => rw [buildPlans, ih, List.mapM_cons]

/-- A page is built from the pages directly below it and its own content. -/
theorem build_eq (subject : Subject) :
    maker.build subject = do
      subject.problems.forM fun problem => Build.report problem
      let children ← (maker.below subject).mapM maker.build
      let content ← maker.content subject
      return subject.page content children := by
  rw [build, Arrangement.plan_eq, buildPlan, buildPlans_eq, List.mapM_map]
  rfl

/-- A property of a page and its subject holds in every build that succeeds if it passes from the
pages directly below to a page, given what making its content ensures. -/
theorem ensures_build {invariant : Session → Prop} {eligible : Subject → Prop}
    {shown : Subject → Content.Node → Prop} {property : Subject → Page → Prop}
    (below : ∀ subject, eligible subject → ∀ placed ∈ maker.below subject, eligible placed)
    (content : ∀ subject, eligible subject →
      EnsuresUnlessFailed invariant (maker.content subject) (shown subject))
    (step : ∀ subject dri content children, eligible subject → subject.HasDri dri →
      shown subject content → List.Forall₂ property (maker.below subject) children →
        property subject (subject.page content children))
    {subject : Subject} {dri : Dri} (hasDri : subject.HasDri dri) (isEligible : eligible subject) :
    EnsuresUnlessFailed invariant (maker.build subject) (property subject) := by
  induction subject using maker.belowInduction generalizing dri with
  | step subject ih =>
      rw [build_eq, hasDri.problems_eq_nil, List.forM_eq_forM, List.forM_nil, pure_bind]
      have children : EnsuresUnlessFailed invariant ((maker.below subject).mapM maker.build)
          (List.Forall₂ property (maker.below subject)) := by
        refine ensuresUnlessFailed_mapM fun placed member => ?_
        obtain ⟨placedDri, placedHasDri⟩ :=
          maker.hasDri_of_places (maker.places_of_mem_below member)
        exact ih placed member placedHasDri (below subject isEligible placed member)
      refine children.bind fun pages built => ?_
      refine (content subject isEligible).bind fun node holds => ?_
      exact ensuresUnlessFailed_pure (step subject dri node pages isEligible hasDri holds built)

/-- A property holds of all pages of every build that succeeds if it holds of a page with the
content that is made for it, whatever stands below. -/
theorem ensures_all_of_build {invariant : Session → Prop} {eligible : Subject → Prop}
    {shown : Subject → Content.Node → Prop} {property : Page → Prop}
    (below : ∀ subject, eligible subject → ∀ placed ∈ maker.below subject, eligible placed)
    (content : ∀ subject, eligible subject →
      EnsuresUnlessFailed invariant (maker.content subject) (shown subject))
    (page : ∀ subject content children, eligible subject → shown subject content →
      property (subject.page content children))
    {subject : Subject} {dri : Dri} (hasDri : subject.HasDri dri) (isEligible : eligible subject) :
    EnsuresUnlessFailed invariant (maker.build subject) fun root =>
      ∀ reached ∈ root.all, property reached := by
  have step : ∀ subject dri content children, eligible subject → subject.HasDri dri →
      shown subject content →
      List.Forall₂ (fun _ root => ∀ reached ∈ Page.all root, property reached)
        (maker.below subject) children →
      ∀ reached ∈ (subject.page content children).all, property reached := by
    intro subject dri content children isEligible _ holds built
    rw [Page.all_eq, List.forall_mem_cons, List.forall_mem_flatMap]
    refine ⟨page subject content children isEligible holds, fun child isChild => ?_⟩
    obtain ⟨placed, -, childHolds⟩ := exists_related_of_mem built.flip isChild
    exact childHolds
  exact maker.ensures_build below content step hasDri isEligible

end PageMaker

/-- A module whose pages are generated has its pages built in a fresh session and finished by the
standard passes. -/
theorem ModuleDecl.exists_build_of_generate {settings : Settings} {decl : ModuleDecl}
    {generated : Generated} (success : decl.generate settings = .ok generated) :
    ∃ page session,
      ((decl.pageMaker settings []).build (.module decl)).run.run {} = (.ok page, session) ∧
      generated.root = (Pass.applyAll Pass.standard page).1 ∧
      generated.problems = session.problems ++ (Pass.applyAll Pass.standard page).2 := by
  rw [generate, generateWith] at success
  split at success
  · cases success
  · rename_i page session run
    obtain rfl := Except.ok.inj success
    exact ⟨page, session, run, rfl, rfl⟩

/-! ## A module -/

/-- A module with one package: a class with a constructor, an own and an inherited function, a
nested class and an extension, the type alias that implements the class on another platform, and an
enum class. -/
def shapes : ModuleDecl :=
  let common : SourceSetId := ⟨"shapes", "common"⟩
  let jvm : SourceSetId := ⟨"shapes", "jvm"⟩
  let named := fun (id : SourceSetId) (name : String) (dri : Dri) =>
    ({ dri, name := some name, sourceSets := .singleton id } : Common)
  let inBox := fun (name : String) =>
    { Dri.ofClass "shapes" "Box" with callable := some { name } }
  let inherited := .uniform [common] (some (.ofClass "shapes" "Closable"))
  let extension : FunctionDecl :=
    { common := named jvm "fill" { packageName := "shapes", callable := some { name := "fill" } }
      receiver := some { dri := inBox "fill", type := { dri := some (.ofClass "shapes" "Box") } } }
  let box : ClasslikeDecl :=
    { common :=
        { named common "Box" (.ofClass "shapes" "Box") with
          extras := { callableExtensions := some [.function extension] } }
      constructors := [{ common := named common "Box" (inBox "Box"), isConstructor := true }]
      functions := [{ common := named common "open" (inBox "open") },
        { common :=
            { named common "close" (inBox "close") with
              extras := { inheritedMember := some inherited } } }]
      classlikes := [{ common := named common "Lid" (.ofClass "shapes" "Box.Lid") }]
      expectPresentIn := some common }
  let color : ClasslikeDecl :=
    { common := named common "Color" (.ofClass "shapes" "Color")
      kind := .enumKind
      entries := [{ common := named common "Red" (.ofClass "shapes" "Color.Red") }] }
  { name := "shapes"
    packages :=
      [{ common := named common "shapes" (.ofPackage "shapes")
         classlikes := [box, color]
         typeAliases := [{ common := named jvm "Box" (.ofClass "shapes" "Box") }] }]
    sourceSets := [⟨common, "common", .common⟩, ⟨jvm, "jvm", .jvm⟩] }

/-- The pages of the module are built, whatever the settings. -/
theorem exists_page_shapes (settings : Settings) :
    ∃ page session, ((shapes.pageMaker settings []).build (.module shapes)).run.run {} =
      (.ok page, session) := by
  have succeeds : ∀ merge separate listAll,
      (((shapes.pageMaker ⟨merge, separate, listAll⟩ []).build (.module shapes)).run.run
        {}).1.toOption.isSome := by
    decide +kernel
  have built := succeeds settings.mergeVariants settings.separateInherited settings.listAllTypes
  cases run : ((shapes.pageMaker settings []).build (.module shapes)).run.run {} with
  | mk result session =>
      rw [run] at built
      cases result with
      | ok page => exact ⟨page, session, rfl⟩
      | error failure => exact nomatch built

/-- The pages of the module are generated, whatever the settings. -/
theorem exists_generated_shapes (settings : Settings) :
    ∃ generated, shapes.generate settings = .ok generated := by
  obtain ⟨page, session, built⟩ := exists_page_shapes settings
  have run : ((shapes.pageMaker settings []).build (.module shapes)).run {} = (.ok page, session) :=
    built
  rw [ModuleDecl.generate, ModuleDecl.generateWith, run]
  exact ⟨_, rfl⟩

end DocPages
