import DocPages.Proofs.Content.Coverage
import DocPages.Proofs.Page.Passes
import DocPages.Proofs.Page.Sources
import DocPages.Proofs.Signature.Problems
import Mathlib.Algebra.GroupWithZero.Nat

/-!
# Reports of runs

Building the pages of a module reports the problems of signatures and no others, and the passes
report what content claims too much. The errors of a run are therefore errors of types, of which
there are none if all types can be shown, and its warnings count the nodes that claim source sets
which none of their children carries.
-/

namespace DocPages

open Build Declaration

/-- The reported problems are those of signatures of the sources. -/
def Session.ReportsFrom (sources : List Declaration) (session : Session) : Prop :=
  ∀ problem ∈ session.problems, ∃ source ∈ sources, problem ∈ Signature.problemsOf source

theorem Session.reportsFrom_fresh (sources : List Declaration) : Session.ReportsFrom sources {} :=
  fun _ member => (List.not_mem_nil member).elim

@[simp]
theorem Declaration.problemsOf_unrenamed (declaration : Declaration) :
    Signature.problemsOf declaration.unrenamed = Signature.problemsOf declaration := by
  cases declaration <;> rfl

/-- A request for a signature of a source reports its problems at most. -/
private theorem obeys_signature_reportsFrom {sources : List Declaration} {declaration : Declaration}
    (among : declaration.IsAmong sources) :
    (Content.Fragment.signature declaration).Obeys (keeping (Session.ReportsFrom sources)) := by
  intro scope session reports
  change True ∧ Session.ReportsFrom sources ((signature declaration).run session).2
  rcases signature_cases declaration session with ⟨nodes, -, run⟩ | ⟨-, run⟩
  · rw [run]
    exact ⟨trivial, reports⟩
  · rw [run]
    refine ⟨trivial, fun problem member => ?_⟩
    rcases List.mem_append.mp member with isKnown | isNew
    · exact reports problem isKnown
    · obtain ⟨source, isSource, same⟩ := among
      rw [← problemsOf_unrenamed, ← same, problemsOf_unrenamed] at isNew
      exact ⟨source, isSource, isNew⟩

/-- Building the pages of a module reports problems of signatures of its sources. -/
theorem PageMaker.reportsFrom_of_build {maker : PageMaker} {decl : ModuleDecl}
    (renders : ∀ renderer ∈ maker.renderers,
      renderer.Obeys (keeping (Session.ReportsFrom decl.sources))) :
    Session.ReportsFrom decl.sources ((maker.build (.module decl)).run.run {}).2 :=
  (maker.allows_build composes_keeping renders maker.isSourced_of_mem_below
    (fun _ sourced _ requested =>
      obeys_signature_reportsFrom (sourced.isAmong_of_mem_requested requested))
    (Subject.hasDri_module decl) (Subject.isSourced_module decl) {}
    (Session.reportsFrom_fresh decl.sources)).2

/-! ## Counts -/

namespace Report

theorem warnings_append (left right : List Problem) :
    (ofProblems (left ++ right)).warnings =
      (ofProblems left).warnings + (ofProblems right).warnings :=
  List.countP_append

/-- Problems of one severity are all counted under it. -/
theorem countP_severity {problems : List Problem} {severity : Severity}
    (uniform : ∀ problem ∈ problems, problem.severity = severity) (counted : Severity) :
    problems.countP (·.severity == counted) =
      if severity = counted then problems.length else 0 := by
  split
  · rename_i same
    exact List.countP_eq_length.mpr fun problem member => by simp [uniform problem member, same]
  · rename_i different
    exact List.countP_eq_zero.mpr fun problem member => by
      simpa [uniform problem member] using different

end Report

namespace Pass

theorem severity_of_mem_problems {pass : Pass} {page : Page} {problem : Problem}
    (member : problem ∈ pass.problems page) : problem.severity = .warning := by
  cases pass with
  | briefBlocks | pathToRoot => exact (List.not_mem_nil member).elim
  | coverageCheck =>
      obtain ⟨placed, -, isGap⟩ := List.mem_flatMap.mp member
      obtain ⟨gap, -, rfl⟩ := List.mem_map.mp isGap
      rfl

/-- The check for coverage reports every node that claims too much. -/
theorem length_problems_coverageCheck (page : Page) :
    (coverageCheck.problems page).length =
      (page.all.map fun reached =>
        reached.content.walk.countP fun node => decide node.Overclaims).sum := by
  rw [problems, List.length_flatMap, Page.all, List.map_map]
  simp only [List.length_map, Content.Node.length_coverageGaps, Function.comp_def]

end Pass

namespace ModuleDecl

variable {settings : Settings} {decl : ModuleDecl} {generated : Generated}

/-- The problems of a run are those of signatures, and then those that the check for coverage finds
in the finished tree. -/
theorem exists_problems_of_generate (success : decl.generate settings = .ok generated) :
    ∃ session : Session, session.ReportsFrom decl.sources ∧
      generated.problems = session.problems ++ Pass.coverageCheck.problems generated.root := by
  obtain ⟨page, session, built, root, problems⟩ := exists_build_of_generate success
  have renders : ∀ renderer ∈ (decl.pageMaker settings []).renderers,
      renderer.Obeys (keeping (Session.ReportsFrom decl.sources)) :=
    List.forall_mem_singleton.mpr (TagRenderer.obeys_sinceKotlin composes_keeping)
  have reports := PageMaker.reportsFrom_of_build renders
  rw [built] at reports
  exact ⟨session, reports, by rw [problems, root, Pass.problems_applyAll_standard]⟩

/-- A module whose types can all be shown is generated without errors. Only the types that
signatures use are asked for, those of extensions included. -/
theorem errors_of_generate
    (resolvable : ∀ source ∈ decl.sources, ∀ type ∈ source.usedTypes, ∀ use ∈ type.nested,
      use.IsResolvable)
    (success : decl.generate settings = .ok generated) : generated.report.errors = 0 := by
  obtain ⟨session, reports, problems⟩ := exists_problems_of_generate success
  have silent : session.problems = [] := by
    refine List.eq_nil_iff_forall_not_mem.mpr fun problem member => ?_
    obtain ⟨source, isSource, isProblem⟩ := reports problem member
    rw [Signature.problemsOf_eq_nil (resolvable source isSource)] at isProblem
    exact List.not_mem_nil isProblem
  rw [Generated.report, problems, silent, List.nil_append]
  exact Report.countP_severity (fun problem => Pass.severity_of_mem_problems) .error

/-- A module with a class that has a generic supertype and a nullable extension, and with a function
that takes a function with a receiver. -/
def builders : ModuleDecl :=
  let common : SourceSetId := ⟨"builders", "common"⟩
  let named := fun (name : String) (dri : Dri) =>
    ({ dri, name := some name, sourceSets := .singleton common } : Common)
  let inPackage := fun (name : String) =>
    ({ packageName := "builders", callable := some { name } } : Dri)
  let tag : TypeUse := { dri := some (.ofClass "builders" "Tag"), path := ["builders", "Tag"] }
  let list : TypeUse := { path := ["kotlin", "collections", "List"], arguments := [tag] }
  let init : TypeUse := { arguments := [tag, .unit], function := some { hasReceiver := true } }
  let extension : FunctionDecl :=
    { common := named "text" (inPackage "text")
      receiver := some { dri := inPackage "text", type := { tag with nullable := true } } }
  let tagClass : ClasslikeDecl :=
    { common :=
        { named "Tag" (.ofClass "builders" "Tag") with
          extras := { callableExtensions := some [.function extension] } }
      supertypes := [list] }
  let function : FunctionDecl :=
    { common := named "tag" (inPackage "tag")
      parameters := [{ dri := inPackage "tag", name := some "init", type := init }]
      returnType := some tag }
  { name := "builders"
    packages :=
      [{ common := named "builders" (.ofPackage "builders")
         classlikes := [tagClass], functions := [function] }]
    sourceSets := [⟨common, "common", .common⟩] }

/-- All types of the module can be shown, that of the function with a receiver included. -/
theorem errors_of_generate_builders :
    (∀ source ∈ builders.sources, ∀ type ∈ source.usedTypes, ∀ use ∈ type.nested,
      use.IsResolvable) ∧
    ∃ generated, builders.generate {} = .ok generated ∧ generated.report.errors = 0 := by
  have resolvable : ∀ source ∈ builders.sources, ∀ type ∈ source.usedTypes, ∀ use ∈ type.nested,
      use.IsResolvable := by
    decide +kernel
  have succeeds : (builders.generate {}).toOption.isSome := by decide +kernel
  obtain ⟨generated, made⟩ := Option.isSome_iff_exists.mp succeeds
  have success := eq_ok_of_toOption made
  exact ⟨resolvable, generated, success, errors_of_generate resolvable success⟩

/-- The warnings of a run count the nodes of the finished pages that have children and claim a
source set which none of these carries. -/
theorem warnings_of_generate (success : decl.generate settings = .ok generated) :
    generated.report.warnings =
      (generated.root.all.map fun page =>
        page.content.walk.countP fun node => decide node.Overclaims).sum := by
  obtain ⟨session, reports, problems⟩ := exists_problems_of_generate success
  have allErrors : ∀ problem ∈ session.problems, problem.severity = .error := by
    intro problem member
    obtain ⟨source, -, isProblem⟩ := reports problem member
    exact Problem.severity_of_concernsType (Signature.concernsType_of_mem_problemsOf isProblem)
  have noWarnings : (Report.ofProblems session.problems).warnings = 0 :=
    Report.countP_severity allErrors .warning
  calc generated.report.warnings
      = (Report.ofProblems session.problems).warnings +
          (Report.ofProblems (Pass.coverageCheck.problems generated.root)).warnings := by
        rw [Generated.report, problems, Report.warnings_append]
    _ = (Pass.coverageCheck.problems generated.root).length := by
        rw [noWarnings, Nat.zero_add]
        exact Report.countP_severity (fun problem => Pass.severity_of_mem_problems) .warning
    _ = _ := Pass.length_problems_coverageCheck generated.root

/-- The page of the class `Box` claims the source set of an extension, which its section of members
does not carry. -/
theorem warnings_of_generate_shapes :
    ∃ generated, shapes.generate {} = .ok generated ∧ 0 < generated.report.warnings ∧
      generated.report.warnings =
        (generated.root.all.map fun page =>
          page.content.walk.countP fun node => decide node.Overclaims).sum := by
  obtain ⟨generated, success⟩ := exists_generated_shapes {}
  have warns : ((shapes.generate {}).toOption.map fun generated =>
      decide (0 < generated.report.warnings)) = some true := by
    decide +kernel
  rw [success] at warns
  exact ⟨generated, success, of_decide_eq_true (Option.some.inj warns),
    warnings_of_generate success⟩

end ModuleDecl

end DocPages
