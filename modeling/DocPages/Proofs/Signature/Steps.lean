import DocPages.Signature.Cache
import Mathlib.Data.List.Forall2

/-!
# Steps of a run

What a step of a run makes from every session with an invariant, and that it keeps the invariant. A
step that can fail keeps it too when it fails, and then has no result to speak of.
-/

namespace DocPages

/-- Every element of a list has a related one in a list that is related to it one by one. -/
theorem exists_related_of_mem {α β : Type} {relation : α → β → Prop} {left : List α}
    {right : List β} (related : List.Forall₂ relation left right) {element : α}
    (member : element ∈ left) : ∃ other ∈ right, relation element other := by
  induction related with
  | nil => simp at member
  | cons head tail ih =>
      rcases List.mem_cons.mp member with rfl | inTail
      · exact ⟨_, List.mem_cons_self, head⟩
      · obtain ⟨other, inRight, holds⟩ := ih inTail
        exact ⟨other, List.mem_cons_of_mem _ inRight, holds⟩

/-- Two images of a list are related one by one if the images of each element are related. -/
theorem forall₂_map_map {α β γ : Type} {relation : β → γ → Prop} {elements : List α} {left : α → β}
    {right : α → γ} (each : ∀ element ∈ elements, relation (left element) (right element)) :
    List.Forall₂ relation (elements.map left) (elements.map right) := by
  rw [List.forall₂_map_left_iff, List.forall₂_map_right_iff]
  exact List.forall₂_same.mpr each

/-- What is made for elements and has the images expected of them has these images in order. -/
theorem map_eq_map_of_forall₂ {α β γ : Type} {elements : List α} {made : List β} {image : β → γ}
    {expected : α → γ}
    (each : List.Forall₂ (fun element other => image other = expected element) elements made) :
    made.map image = elements.map expected := by
  rw [← List.forall₂_eq_eq_eq, List.forall₂_map_left_iff, List.forall₂_map_right_iff]
  exact each.flip

theorem forall₂_flatMap {α β γ : Type} {relation : β → γ → Prop} {elements : List α}
    {left : α → List β} {right : α → List γ}
    (each : ∀ element ∈ elements, List.Forall₂ relation (left element) (right element)) :
    List.Forall₂ relation (elements.flatMap left) (elements.flatMap right) := by
  rw [List.flatMap_def, List.flatMap_def]
  exact List.rel_flatten (forall₂_map_map each)

/-- Elements at one place of two lists that are related one by one are related. -/
theorem exists_related_of_getElem? {α β : Type} {relation : α → β → Prop} {left : List α}
    {right : List β} (related : List.Forall₂ relation left right) {index : Nat} {element : α}
    (place : left[index]? = some element) :
    ∃ other, right[index]? = some other ∧ relation element other := by
  induction related generalizing index with
  | nil => simp at place
  | cons head tail ih =>
      cases index with
      | zero =>
          obtain rfl := Option.some.inj place
          exact ⟨_, rfl, head⟩
      | succ index => exact ih place

/-! ## Lists of steps -/

section

variable {m : Type → Type} [Monad m] [LawfulMonad m] {α β : Type}

/-- What holds of steps without effect and of sequences of two holds of the steps of a list. -/
theorem mapM_of_composes (holds : {γ : Type} → m γ → Prop)
    (ofPure : ∀ {γ : Type} (value : γ), holds (pure value))
    (ofBind : ∀ {γ δ : Type} {step : m γ} {next : γ → m δ}, holds step →
      (∀ value, holds (next value)) → holds (step >>= next))
    {elements : List α} {step : α → m β} (each : ∀ element ∈ elements, holds (step element)) :
    holds (elements.mapM step) := by
  induction elements with
  | nil => exact ofPure []
  | cons head tail ih =>
      obtain ⟨headHolds, tailHolds⟩ := List.forall_mem_cons.mp each
      rw [List.mapM_cons]
      exact ofBind headHolds fun first => ofBind (ih tailHolds) fun rest => ofPure (first :: rest)

/-- Properties of results that steps without effect and sequences of two bring about are brought
about one by one by the steps of a list. -/
theorem mapM_brings_forall₂ (brings : {γ : Type} → m γ → (γ → Prop) → Prop)
    (ofPure : ∀ {γ : Type} {property : γ → Prop} {value : γ}, property value →
      brings (pure value) property)
    (ofBind : ∀ {γ δ : Type} {step : m γ} {next : γ → m δ} {property : γ → Prop}
      {result : δ → Prop}, brings step property →
        (∀ value, property value → brings (next value) result) → brings (step >>= next) result)
    {elements : List α} {step : α → m β} {property : α → β → Prop}
    (each : ∀ element ∈ elements, brings (step element) (property element)) :
    brings (elements.mapM step) (List.Forall₂ property elements) := by
  induction elements with
  | nil => exact ofPure .nil
  | cons head tail ih =>
      obtain ⟨headBrings, tailBrings⟩ := List.forall_mem_cons.mp each
      rw [List.mapM_cons]
      exact ofBind headBrings fun first holds => ofBind (ih tailBrings) fun rest restHolds =>
        ofPure (.cons holds restHolds)

end

namespace Build

variable {α β : Type} {invariant : Session → Prop}

/-- In every session with the invariant, the result of the step has the property, and the step keeps
the invariant. -/
def Ensures (invariant : Session → Prop) (step : Build α) (property : α → Prop) : Prop :=
  ∀ session, invariant session →
    property (step.run session).1 ∧ invariant (step.run session).2

/-- In every session with the invariant, the result of the step has the property unless the step
fails, and the step keeps the invariant. -/
def EnsuresUnlessFailed (invariant : Session → Prop) (step : ExceptT Failure Build α)
    (property : α → Prop) : Prop :=
  Ensures invariant step.run fun result => ∀ value, result = .ok value → property value

/-! ## Steps that succeed -/

theorem ensures_pure {property : α → Prop} {value : α} (holds : property value) :
    Ensures invariant (pure value) property :=
  fun _ before => ⟨holds, before⟩

theorem Ensures.weaken {step : Build α} {property weaker : α → Prop}
    (ensures : Ensures invariant step property) (imply : ∀ value, property value → weaker value) :
    Ensures invariant step weaker := fun session before =>
  ⟨imply _ (ensures session before).1, (ensures session before).2⟩

theorem Ensures.bind {step : Build α} {next : α → Build β} {property : α → Prop}
    {result : β → Prop} (first : Ensures invariant step property)
    (second : ∀ value, property value → Ensures invariant (next value) result) :
    Ensures invariant (step >>= next) result := by
  intro session before
  obtain ⟨holds, between⟩ := first session before
  exact second _ holds _ between

/-- A step does something, whatever that may be. -/
theorem ensures_true (step : Build α) : Ensures (fun _ => True) step fun _ => True :=
  fun _ _ => ⟨trivial, trivial⟩

theorem Ensures.map {step : Build α} {property : β → Prop} {change : α → β}
    (ensures : Ensures invariant step fun value => property (change value)) :
    Ensures invariant (change <$> step) property :=
  fun session before => ensures session before

/-- The steps of a list make results with the properties one by one. -/
theorem ensures_mapM {elements : List α} {step : α → Build β} {property : α → β → Prop}
    (each : ∀ element ∈ elements, Ensures invariant (step element) (property element)) :
    Ensures invariant (elements.mapM step) (List.Forall₂ property elements) :=
  mapM_brings_forall₂ (Ensures invariant) ensures_pure Ensures.bind each

/-- A request for a signature gets what the cache has for its key, or else makes and keeps it. -/
theorem signature_cases (declaration : Declaration) (session : Session) :
    (∃ nodes, session.cache.find? (.ofDeclaration declaration) = some nodes ∧
      (signature declaration).run session =
        (nodes, { session with cache := { session.cache with hits := session.cache.hits + 1 } })) ∨
    (session.cache.find? (.ofDeclaration declaration) = none ∧
      (signature declaration).run session =
        (Signature.nodesOf declaration,
          { cache := { session.cache with
              entries := (.ofDeclaration declaration, Signature.nodesOf declaration) ::
                session.cache.entries
              misses := session.cache.misses + 1 }
            problems := session.problems ++ Signature.problemsOf declaration })) := by
  cases cached : session.cache.find? (.ofDeclaration declaration) with
  | some nodes => exact .inl ⟨nodes, rfl, by simp [signature, StateT.run, cached]⟩
  | none => exact .inr ⟨rfl, by simp [signature, StateT.run, cached]⟩

/-! ## Steps that can fail -/

theorem ensuresUnlessFailed_true (step : ExceptT Failure Build α) :
    EnsuresUnlessFailed (fun _ => True) step fun _ => True :=
  (ensures_true step.run).weaken fun _ _ _ _ => trivial

theorem ensuresUnlessFailed_pure {property : α → Prop} {value : α} (holds : property value) :
    EnsuresUnlessFailed invariant (pure value) property :=
  ensures_pure fun _ equality => Except.ok.inj equality ▸ holds

theorem EnsuresUnlessFailed.bind {step : ExceptT Failure Build α}
    {next : α → ExceptT Failure Build β} {property : α → Prop} {result : β → Prop}
    (first : EnsuresUnlessFailed invariant step property)
    (second : ∀ value, property value → EnsuresUnlessFailed invariant (next value) result) :
    EnsuresUnlessFailed invariant (step >>= next) result := by
  rw [EnsuresUnlessFailed]
  rw [ExceptT.run_bind]
  refine Ensures.bind first fun outcome holds => ?_
  cases outcome with
  | ok value => exact second value (holds value rfl)
  | error failure => exact ensures_pure fun _ equality => nomatch equality

/-- A step that cannot fail as one that can. -/
theorem Ensures.lift {step : Build α} {property : α → Prop}
    (ensures : Ensures invariant step property) :
    EnsuresUnlessFailed invariant (liftM step) property :=
  Ensures.map (ensures.weaken fun _ holds _ equality => Except.ok.inj equality ▸ holds)

/-- A check that changes nothing. -/
theorem ensuresUnlessFailed_check {outcome : Except Failure α} {property : α → Prop}
    (holds : ∀ value, outcome = .ok value → property value) :
    EnsuresUnlessFailed invariant (ExceptT.mk (pure outcome)) property :=
  ensures_pure holds

theorem ensuresUnlessFailed_mapM {elements : List α} {step : α → ExceptT Failure Build β}
    {property : α → β → Prop}
    (each : ∀ element ∈ elements,
      EnsuresUnlessFailed invariant (step element) (property element)) :
    EnsuresUnlessFailed invariant (elements.mapM step) (List.Forall₂ property elements) :=
  mapM_brings_forall₂ (EnsuresUnlessFailed invariant) ensuresUnlessFailed_pure
    EnsuresUnlessFailed.bind each

end Build

end DocPages
