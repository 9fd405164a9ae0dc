import DocPages.Proofs.Page.Building
import DocPages.Proofs.Page.Contents
import DocPages.Proofs.Page.Walk
import DocPages.Proofs.Signature.Problems

/-!
# One identity for each page

The declarations of a group are those of one clash key, of one identity, or of one class with the
aliases that implement it. Whichever they are, every page of a module has one identity that all its
declarations have, and building the pages never reports that a page has several.
-/

namespace DocPages

open Build Declaration

/-- A report of declarations with several identities on one page. -/
def Problem.isDifferingDris : Problem → Bool
  | .differingDris .. => true
  | _ => false

/-- The reported pages with several identities. -/
def Session.identityProblems (session : Session) : List Problem :=
  session.problems.filter Problem.isDifferingDris

/-- The page has one identity, which all its declarations have. The page of all types has no
declarations and an identity of its own. -/
structure Page.HasDri (page : Page) (dri : Dri) : Prop where
  dris : page.dris.toList = [dri]
  declarations : ∀ declaration ∈ page.declarations, declaration.dri = dri
  allTypes : page.kind = .allTypes → page.declarations = [] ∧ dri = .allTypes

/-- The page of a subject with one identity has that identity. -/
theorem Subject.HasDri.page {subject : Subject} {dri : Dri} (hasDri : subject.HasDri dri)
    (content : Content.Node) (children : List Page) :
    (subject.page content children).HasDri dri where
  dris := hasDri.dris
  declarations := hasDri.declarations
  allTypes := by
    cases subject with
    | allTypes decl => exact fun _ => ⟨rfl, (List.singleton_inj.mp hasDri.dris).symm⟩
    | module | package | classlikes | enumEntries | members => exact fun kind => nomatch kind

/-- What the renderer shows reports no page with several identities. -/
def TagRenderer.KeepsIdentities (renderer : TagRenderer) : Prop :=
  ∀ known, renderer.Keeps fun session => session.identityProblems = known

/-- The standard renderer reports nothing. -/
theorem TagRenderer.keepsIdentities_sinceKotlin : TagRenderer.sinceKotlin.KeepsIdentities :=
  fun known => TagRenderer.keeps_sinceKotlin fun session => session.identityProblems = known

/-- Signatures only have problems with types. -/
private theorem filter_isDifferingDris_problemsOf (declaration : Declaration) :
    (Signature.problemsOf declaration).filter Problem.isDifferingDris = [] := by
  rw [List.filter_eq_nil_iff]
  intro problem member differs
  have concerns := Signature.concernsType_of_mem_problemsOf member
  cases problem <;> simp_all [Problem.isDifferingDris, Problem.concernsType]

private theorem keeps_signature (known : List Problem) (declaration : Declaration) :
    (Content.Fragment.signature declaration).Keeps
      fun session => session.identityProblems = known := by
  intro scope session before
  refine ⟨List.nil_subset _, ?_⟩
  change ((Build.signature declaration).run session).2.identityProblems = known
  rcases signature_cases declaration session with ⟨nodes, -, run⟩ | ⟨-, run⟩
  · rw [run]
    exact before
  · rw [run, Session.identityProblems, List.filter_append, filter_isDifferingDris_problemsOf,
      List.append_nil]
    exact before

namespace PageMaker

variable (maker : PageMaker)

/-- Making content reports no page with several identities. -/
theorem keepsIdentities_content
    (renders : ∀ renderer ∈ maker.renderers, renderer.KeepsIdentities) (known : List Problem)
    (subject : Subject) :
    EnsuresUnlessFailed (fun session => session.identityProblems = known) (maker.content subject)
      fun _ => True :=
  (maker.ensures_content (keeps_signature known)
    (fun renderer member => renders renderer member known) subject).weaken fun _ _ _ _ => trivial

/-- Building the page of one identity reports no page with several. -/
theorem keepsIdentities_build
    (renders : ∀ renderer ∈ maker.renderers, renderer.KeepsIdentities) (known : List Problem)
    {subject : Subject} {dri : Dri} (hasDri : subject.HasDri dri) :
    EnsuresUnlessFailed (fun session => session.identityProblems = known) (maker.build subject)
      fun _ => True := by
  have step : ∀ (subject : Subject) (dri : Dri) (content : Content.Node) (children : List Page),
      True → subject.HasDri dri → True →
        List.Forall₂ (fun _ _ => True) (maker.below subject) children → True :=
    fun _ _ _ _ _ _ _ _ => trivial
  exact maker.ensures_build (fun _ _ _ _ => trivial)
    (fun subject _ => maker.keepsIdentities_content renders known subject) step hasDri trivial

/-- Every page of a module has one identity, and building the pages reports none with several,
whether the build succeeds or fails. -/
theorem one_dri_of_build (decl : ModuleDecl) (session : Session) :
    (∀ page, ((maker.build (.module decl)).run.run session).1 = .ok page →
      ∀ reached ∈ page.all, ∃ dri, reached.HasDri dri) ∧
    ((∀ renderer ∈ maker.renderers, renderer.KeepsIdentities) →
      ((maker.build (.module decl)).run.run session).2.identityProblems =
        session.identityProblems) := by
  have step : ∀ subject dri content children, True → subject.HasDri dri → True →
      List.Forall₂ (fun _ page => ∀ reached ∈ Page.all page, ∃ dri, reached.HasDri dri)
        (maker.below subject) children →
      ∀ reached ∈ (subject.page content children).all, ∃ dri, reached.HasDri dri := by
    intro subject dri content children _ hasDri _ built reached member
    rw [Page.all_eq] at member
    rcases List.mem_cons.mp member with rfl | inChild
    · exact ⟨dri, hasDri.page content children⟩
    · obtain ⟨child, isChild, inChild⟩ := List.mem_flatMap.mp inChild
      obtain ⟨placed, -, holds⟩ := exists_related_of_mem built.flip isChild
      exact holds reached inChild
  have run : ∀ invariant : Session → Prop,
      (∀ subject, EnsuresUnlessFailed invariant (maker.content subject) fun _ => True) →
        EnsuresUnlessFailed invariant (maker.build (.module decl)) fun page =>
          ∀ reached ∈ page.all, ∃ dri, reached.HasDri dri := fun invariant content =>
    maker.ensures_build (fun _ _ _ _ => trivial) (fun subject _ => content subject) step
      (Subject.hasDri_module decl) trivial
  constructor
  · have content : ∀ subject,
        EnsuresUnlessFailed (fun _ => True) (maker.content subject) fun _ => True :=
      fun subject => (ensures_true _).weaken fun _ _ _ _ => trivial
    exact (run _ content session trivial).1
  · intro renders
    have content := maker.ensures_content (keeps_signature session.identityProblems)
      fun renderer member => renders renderer member _
    exact (run _ (fun subject => (content subject).weaken fun _ _ _ _ => trivial) session rfl).2

/-- The page of the class `Box` is merged with that of the type alias that implements it; it has one
identity as all pages of the module, and nothing else is reported. -/
theorem one_dri_of_build_shapes :
    ∃ page session,
      ((shapes.pageMaker { mergeVariants := true } []).build (.module shapes)).run.run {} =
        (.ok page, session) ∧
      (∀ reached ∈ page.all, ∃ dri, reached.HasDri dri) ∧ session.identityProblems = [] := by
  obtain ⟨page, session, built⟩ := exists_page_shapes { mergeVariants := true }
  have standard : ∀ renderer ∈ (shapes.pageMaker { mergeVariants := true } []).renderers,
      renderer.KeepsIdentities := by
    intro renderer member
    obtain rfl := List.mem_singleton.mp member
    exact TagRenderer.keepsIdentities_sinceKotlin
  obtain ⟨identified, silent⟩ :=
    one_dri_of_build (shapes.pageMaker { mergeVariants := true } []) shapes {}
  rw [built] at identified silent
  exact ⟨page, session, built, identified page rfl, silent standard⟩

end PageMaker

end DocPages
