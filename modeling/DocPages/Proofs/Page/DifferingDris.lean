import DocPages.Proofs.Page.Identity

/-!
# Groups with several identities

The page of a group reports that its declarations have several identities exactly if two of them
differ. How many it counts is another matter: an identity that is listed twice is counted twice if
another one stands in between that the order does not tell from it.
-/

namespace DocPages

open Build Declaration

namespace Subject

variable {subject : Subject} {label : String}

/-- Two declarations of the page have different identities. -/
def HasSeveralDris (subject : Subject) : Prop :=
  ∃ first ∈ subject.declarations, ∃ second ∈ subject.declarations, first.dri ≠ second.dri

instance (subject : Subject) : Decidable subject.HasSeveralDris :=
  inferInstanceAs (Decidable (∃ first ∈ _, ∃ second ∈ _, _))

theorem dris_of_groupLabel (grouped : subject.groupLabel? = some label) :
    subject.dris = drisOf subject.declarations := by
  cases subject with
  | classlikes | enumEntries | members => rfl
  | module | allTypes | package => cases grouped

/-- A group reports its identities if there are several. -/
theorem problems_of_groupLabel (grouped : subject.groupLabel? = some label) :
    subject.problems =
      if subject.HasSeveralDris then
        [.differingDris label ((subject.declarations.head?.map Declaration.dri).getD {})
          subject.dris.size]
      else [] := by
  have several : 1 < subject.dris.size ↔ subject.HasSeveralDris := by
    rw [dris_of_groupLabel grouped, drisOf, OrderedSet.one_lt_size_ofList_iff]
    simp [HasSeveralDris]
  simp only [problems, grouped, several]

theorem isDifferingDris_of_mem_problems {problem : Problem} (member : problem ∈ subject.problems) :
    problem.isDifferingDris := by
  rw [problems] at member
  split at member
  · split at member
    · rw [List.mem_singleton.mp member]
      rfl
    · cases member
  · cases member

end Subject

namespace PageMaker

variable (maker : PageMaker)

/-- Reporting problems adds them to those of the session. -/
private theorem run_forM_report (problems : List Problem) (session : Session) :
    (problems.forM fun problem => (Build.report problem : ExceptT Failure Build Unit)).run.run
        session =
      (.ok (), { session with problems := session.problems ++ problems }) := by
  induction problems generalizing session with
  | nil =>
      rw [List.append_nil]
      rfl
  | cons head tail ih =>
      have rest := ih { session with problems := session.problems ++ [head] }
      rw [List.append_assoc] at rest
      exact rest

/-- The problems of a page are reported before the pages below it and its content are made. -/
private theorem run_build (subject : Subject) (session : Session) :
    (maker.build subject).run.run session =
      (do
        let children ← (maker.below subject).mapM maker.build
        let content ← maker.content subject
        return subject.page content children : ExceptT Failure Build Page).run.run
          { session with problems := session.problems ++ subject.problems } := by
  rw [build_eq, ExceptT.run_bind, StateT.run_bind, run_forM_report]
  rfl

variable {maker}

/-- Building the page of a group reports that it has several identities exactly if two of its
declarations have different ones. The page has the identities of its declarations. It counts as many
as there are different ones exactly if no other identity that ties stands between two equal ones. -/
theorem differingDris_of_build
    (renders : ∀ renderer ∈ maker.renderers, renderer.KeepsIdentities) {subject : Subject}
    {label : String} (grouped : subject.groupLabel? = some label) (session : Session) :
    let run := (maker.build subject).run.run session
    let dris := subject.declarations.map Declaration.dri
    run.2.identityProblems = session.identityProblems ++
        (if subject.HasSeveralDris then
          [.differingDris label (dris.head?.getD {}) subject.dris.size]
        else []) ∧
      ∀ page, run.1 = .ok page →
        (∀ dri, dri ∈ page.dris.toList ↔ dri ∈ dris) ∧
          (page.dris.size = dris.toFinset.card ↔
            ∀ dri other, [dri, other, dri].Sublist dris → compare dri other = .eq →
              other = dri) := by
  intro run dris
  let known := session.identityProblems ++ subject.problems
  have below : EnsuresUnlessFailed (fun after => after.identityProblems = known)
      ((maker.below subject).mapM maker.build)
      (List.Forall₂ (fun _ _ => True) (maker.below subject)) := by
    refine ensuresUnlessFailed_mapM fun placed member => ?_
    obtain ⟨dri, hasDri⟩ := maker.hasDri_of_places (maker.places_of_mem_below member)
    exact maker.keepsIdentities_build renders known hasDri
  have rest : EnsuresUnlessFailed (fun after => after.identityProblems = known)
      (do
        let children ← (maker.below subject).mapM maker.build
        let content ← maker.content subject
        return subject.page content children)
      fun page => page.dris = subject.dris := by
    refine below.bind fun children _ => ?_
    refine (maker.keepsIdentities_content renders known subject).bind fun content _ => ?_
    exact ensuresUnlessFailed_pure rfl
  have reported : ({ session with problems := session.problems ++ subject.problems } :
      Session).identityProblems = known := by
    rw [Session.identityProblems, List.filter_append, List.filter_eq_self.mpr
      fun problem member => Subject.isDifferingDris_of_mem_problems member]
    rfl
  obtain ⟨pageDris, problems⟩ := rest _ reported
  rw [← run_build] at pageDris problems
  refine ⟨?_, fun page built => ?_⟩
  · have onlyOwn : run.2.identityProblems = session.identityProblems ++ subject.problems := problems
    rw [onlyOwn, Subject.problems_of_groupLabel grouped, List.head?_map]
  · have isSet : page.dris = .ofList dris :=
      (pageDris page built).trans (Subject.dris_of_groupLabel grouped)
    rw [isSet]
    exact ⟨fun dri => OrderedSet.mem_ofList, OrderedSet.size_ofList_eq_card_iff⟩

/-- A maker of pages with the default settings. -/
def standard : PageMaker where
  settings := {}
  registry := .ofList []

/-- A function on a platform, with a parameter of a type. -/
def fill (platform : String) (type : SignatureType) : Declaration :=
  .function
    { common :=
        { dri := { packageName := "shapes", callable := some { name := "fill", params := [type] } }
          name := "fill"
          sourceSets := .singleton ⟨"shapes", platform⟩ } }

/-- Three variants of a function, for a parameter of a type `T`, of a type parameter `T`, and of the
type again. -/
def fills : List Declaration :=
  [fill "jvm" (.named "T"), fill "js" (.param "T"), fill "native" (.named "T")]

private theorem exists_page_fills :
    ∃ page session, (standard.build (.members fills)).run.run {} = (.ok page, session) ∧
      page.dris.size = 3 := by
  have built : ((standard.build (.members fills)).run.run {}).1.toOption.map
      (fun page => page.dris.size) = some 3 := by
    decide +kernel
  cases run : (standard.build (.members fills)).run.run {} with
  | mk outcome session =>
      rw [run] at built
      cases outcome with
      | error failure => cases built
      | ok page => exact ⟨page, session, rfl, Option.some.inj built⟩

/-- The page of the three variants reports several identities. The two of the type are equal, and
the one of the type parameter stands between them, so that it does not have as many as there are. -/
theorem differingDris_of_build_fills :
    (∀ renderer ∈ standard.renderers, renderer.KeepsIdentities) ∧
      (Subject.members fills).groupLabel? = some "Member" ∧
      ∃ page session, (standard.build (.members fills)).run.run {} = (.ok page, session) ∧
        session.identityProblems = [.differingDris "Member" (fill "jvm" (.named "T")).dri 3] ∧
        (∀ dri, dri ∈ page.dris.toList ↔ dri ∈ fills.map Declaration.dri) ∧
        (page.dris.size = (fills.map Declaration.dri).toFinset.card ↔
          ∀ dri other, [dri, other, dri].Sublist (fills.map Declaration.dri) →
            compare dri other = .eq → other = dri) := by
  have renders : ∀ renderer ∈ standard.renderers, renderer.KeepsIdentities :=
    List.forall_mem_singleton.mpr TagRenderer.keepsIdentities_sinceKotlin
  obtain ⟨page, session, run, size⟩ := exists_page_fills
  have grouped : (Subject.members fills).groupLabel? = some "Member" := rfl
  obtain ⟨reported, counted⟩ := differingDris_of_build renders grouped {}
  rw [run] at reported counted
  have problems : session.identityProblems =
      [.differingDris "Member" (fill "jvm" (.named "T")).dri 3] := reported
  exact ⟨renders, grouped, page, session, run, problems, counted page rfl⟩

/-- There are two different identities, and the page has three. -/
theorem exists_size_dris_ne_card :
    ∃ page session, (standard.build (.members fills)).run.run {} = (.ok page, session) ∧
      page.dris.size ≠ (fills.map Declaration.dri).toFinset.card := by
  obtain ⟨page, session, run, size⟩ := exists_page_fills
  have different : (fills.map Declaration.dri).toFinset.card = 2 := by decide +kernel
  exact ⟨page, session, run, by omega⟩

end PageMaker

end DocPages
