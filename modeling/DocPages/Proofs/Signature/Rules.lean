import DocPages.Proofs.Signature.Steps

/-!
# Rules for steps

A rule says of every step whether it is allowed. A rule that allows the steps without effect and the
sequences of allowed steps allows everything that is composed of allowed steps. Pages are composed
of requests for signatures, so whatever such a rule says of the requests holds of the pages.

One such rule allows the steps whose results do not depend on the session, as long as an invariant
holds.
-/

namespace DocPages

namespace Build

variable {α β : Type}

/-- A rule allows some steps. -/
abbrev Rule := (α : Type) → Build α → Prop

/-- A step without effect is allowed, and so is a sequence of allowed steps. -/
structure Rule.Composes (rule : Rule) : Prop where
  pure : ∀ {α : Type} (value : α), rule α (Pure.pure value)
  bind : ∀ {α β : Type} {step : Build α} {next : α → Build β},
    rule α step → (∀ value, rule β (next value)) → rule β (step >>= next)

namespace Rule.Composes

variable {rule : Rule} (composes : rule.Composes)

include composes

theorem map {step : Build α} (allowed : rule α step) (change : α → β) :
    rule β (change <$> step) :=
  composes.bind allowed fun value => composes.pure (change value)

theorem mapM {elements : List α} {step : α → Build β}
    (each : ∀ element ∈ elements, rule β (step element)) :
    rule (List β) (elements.mapM step) :=
  mapM_of_composes (rule _) composes.pure composes.bind each

/-! ## Steps that can fail -/

/-- A step that cannot fail as one that can. -/
theorem run_lift {step : Build α} (allowed : rule α step) :
    rule _ (liftM step : ExceptT Failure Build α).run :=
  composes.map allowed Except.ok

theorem run_bind {step : ExceptT Failure Build α} {next : α → ExceptT Failure Build β}
    (first : rule _ step.run) (second : ∀ value, rule _ (next value).run) :
    rule _ (step >>= next).run := by
  rw [ExceptT.run_bind]
  refine composes.bind first fun outcome => ?_
  cases outcome with
  | ok value => exact second value
  | error failure => exact composes.pure (Except.error failure)

theorem run_mapM {elements : List α} {step : α → ExceptT Failure Build β}
    (each : ∀ element ∈ elements, rule _ (step element).run) :
    rule _ (elements.mapM step).run :=
  mapM_of_composes (fun {γ} (step : ExceptT Failure Build γ) => rule _ step.run)
    (fun value => composes.pure (Except.ok value)) composes.run_bind each

end Rule.Composes

/-! ## Rules -/

variable {invariant : Session → Prop}

/-- The steps that keep an invariant. -/
def keeping (invariant : Session → Prop) : Rule := fun _ step =>
  Ensures invariant step fun _ => True

theorem composes_keeping : (keeping invariant).Composes where
  pure _ := ensures_pure trivial
  bind first second := first.bind fun value _ => second value

/-- The steps that have the same result in every session with an invariant, and keep the
invariant. -/
def settling (invariant : Session → Prop) : Rule := fun _ step =>
  ∃ value, Ensures invariant step (· = value)

theorem composes_settling : (settling invariant).Composes where
  pure value := ⟨value, ensures_pure rfl⟩
  bind := by
    rintro α β step next ⟨value, first⟩ second
    obtain ⟨result, ensures⟩ := second value
    exact ⟨result, first.bind fun _ same => same ▸ ensures⟩

/-! ## Settled outcomes -/

/-- In every session with the invariant the step has the outcome, and it keeps the invariant. -/
def SettlesTo (invariant : Session → Prop) (step : ExceptT Failure Build α)
    (outcome : Except Failure α) : Prop :=
  Ensures invariant step.run (· = outcome)

/-- A settled step has the outcome that it has in any one session with the invariant. -/
theorem settlesTo_of_settling {step : ExceptT Failure Build α}
    (settles : settling invariant _ step.run) {session : Session} (holds : invariant session) :
    SettlesTo invariant step (step.run.run session).1 := by
  obtain ⟨outcome, ensures⟩ := settles
  rwa [(ensures session holds).1]

theorem settlesTo_pure (value : α) : SettlesTo invariant (pure value) (pure value) :=
  ensures_pure rfl

theorem SettlesTo.bind {step : ExceptT Failure Build α} {next : α → ExceptT Failure Build β}
    {outcome : Except Failure α} {result : α → Except Failure β}
    (first : SettlesTo invariant step outcome)
    (second : ∀ value, SettlesTo invariant (next value) (result value)) :
    SettlesTo invariant (step >>= next) (outcome >>= result) := by
  rw [SettlesTo, ExceptT.run_bind]
  refine Ensures.bind first fun made same => ?_
  subst same
  cases made with
  | ok value => exact second value
  | error failure => exact ensures_pure rfl

theorem settlesTo_mapM {elements : List α} {step : α → ExceptT Failure Build β}
    {outcome : α → Except Failure β}
    (each : ∀ element ∈ elements, SettlesTo invariant (step element) (outcome element)) :
    SettlesTo invariant (elements.mapM step) (elements.mapM outcome) := by
  induction elements with
  | nil => exact settlesTo_pure []
  | cons head tail ih =>
      obtain ⟨headSettles, tailSettles⟩ := List.forall_mem_cons.mp each
      rw [List.mapM_cons, List.mapM_cons]
      exact headSettles.bind fun first => (ih tailSettles).bind fun rest =>
        settlesTo_pure (first :: rest)

end Build

theorem eq_ok_of_toOption {α : Type} {outcome : Except Failure α} {value : α}
    (made : outcome.toOption = some value) : outcome = .ok value := by
  cases outcome with
  | ok other => exact congrArg Except.ok (Option.some.inj made)
  | error failure => cases made

/-- All elements of a list have outcomes if each of them has its own. -/
theorem mapM_eq_ok_iff {α β : Type} {outcome : α → Except Failure β} {elements : List α}
    {values : List β} :
    elements.mapM outcome = .ok values ↔
      List.Forall₂ (fun element value => outcome element = .ok value) elements values := by
  induction elements generalizing values with
  | nil => cases values <;> simp [pure, Except.pure]
  | cons head tail ih =>
      rw [List.mapM_cons]
      cases first : outcome head with
      | error failure => cases values <;> simp [bind, Except.bind, first]
      | ok value =>
          cases rest : tail.mapM outcome <;>
            cases values <;> simp [bind, Except.bind, pure, Except.pure, first, ← ih, rest]

end DocPages
