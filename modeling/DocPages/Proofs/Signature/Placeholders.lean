import DocPages.Content.Traversal
import DocPages.Proofs.Signature.Problems
import DocPages.Signature.Cache

/-!
# Placeholders of types

A type that cannot be shown is replaced by a placeholder and reported as an error, however deep it
stands inside another type. Where no name looks like a placeholder, the errors of a type can
therefore be counted in its text. A placeholder takes the place of a name or of a return type only:
the arguments, the receiver and the mark of a nullable type are shown as ever.
-/

namespace DocPages

open Signature

/-- The texts in the leaves of a tree in render order. -/
def Content.Node.leafTexts (node : Content.Node) : List String :=
  node.walk.filterMap fun
    | .text _ body => some body
    | _ => none

namespace TypeUse

variable {type : TypeUse}

/-! ## Types that cannot be shown -/

/-- The type has no name and is no function type. -/
def isUnnamed (type : TypeUse) : Bool := !type.isFunctionType && type.path.isEmpty

/-- The type is a function type with nothing after its receiver. -/
def isReceiverOnly (type : TypeUse) : Bool :=
  type.isFunctionType && (type.hasReceiver && type.arguments.length == 1)

/-- The number of types, among the type and all types inside it, that have no name or nothing after
their receiver. -/
def unshownCount (type : TypeUse) : Nat :=
  type.nested.countP isUnnamed + type.nested.countP isReceiverOnly

/-- No name of the type is the text of a placeholder. -/
structure IsNameable (type : TypeUse) : Prop where
  path : Piece.placeholderText ∉ type.path
  qualifiedName : type.qualifiedName ≠ Piece.placeholderText

instance (type : TypeUse) : Decidable type.IsNameable :=
  decidable_of_iff
    (Piece.placeholderText ∉ type.path ∧ type.qualifiedName ≠ Piece.placeholderText)
    ⟨fun ⟨path, qualifiedName⟩ => ⟨path, qualifiedName⟩,
      fun ⟨path, qualifiedName⟩ => ⟨path, qualifiedName⟩⟩

/-- A type has a problem of its own for one of two reasons. -/
private theorem countP_isSome_problem? (types : List TypeUse) :
    types.countP (·.problem?.isSome) = types.countP isUnnamed + types.countP isReceiverOnly := by
  induction types with
  | nil => rfl
  | cons head tail ih =>
      have either : (if head.problem?.isSome then 1 else 0) =
          (if head.isUnnamed then 1 else 0) + if head.isReceiverOnly then 1 else 0 := by
        rw [problem?, isUnnamed, isReceiverOnly]
        cases head.isFunctionType
        · cases head.path.isEmpty <;> rfl
        · cases head.hasReceiver && head.arguments.length == 1 <;> rfl
      simp only [List.countP_cons, ih]
      omega

theorem length_problems_ofType (type : TypeUse) :
    (problems (ofType type)).length = type.unshownCount := by
  rw [(problems_ofType_perm type).length_eq, List.length_filterMap_eq_countP,
    countP_isSome_problem?, unshownCount]

end TypeUse

/-! ## Pieces that look like placeholders -/

namespace Signature

/-- The text of the piece tells whether it is a placeholder. -/
def Piece.IsTelling (piece : Piece) : Prop :=
  piece.display = placeholderText ↔ piece.problem?.isSome

instance (piece : Piece) : Decidable piece.IsTelling := inferInstanceAs (Decidable (_ ↔ _))

/-- Where no name is the text of a placeholder, only placeholders are shown as it. -/
theorem isTelling_of_mem_ofType {type : TypeUse}
    (nameable : ∀ use ∈ type.nested, use.IsNameable) : ∀ piece ∈ ofType type, piece.IsTelling := by
  intro piece member
  obtain ⟨use, isInside, isOwn⟩ := List.mem_flatMap.mp ((ofType_perm type).mem_iff.mp member)
  obtain ⟨noSegment, noName⟩ := nameable use isInside
  have marks : ∀ mark ∈ typeMarks, (Piece.symbol mark).IsTelling := by decide
  refine forall_mem_piecesAround marks ?name ?missing ?parts piece isOwn
  case name =>
    rw [namePiece, TypeUse.simpleName?]
    cases isLast : use.path.getLast? with
    | none => cases use.dri <;> simp [Piece.IsTelling, Piece.display, Piece.problem?]
    | some name =>
        have isSegment : name ∈ use.path := List.mem_of_getLast? isLast
        have otherName : name ≠ Piece.placeholderText := fun same => noSegment (same ▸ isSegment)
        cases use.dri with
        | none => simpa [Piece.IsTelling, Piece.symbol, Piece.display, Piece.problem?] using noName
        | some dri => simpa [Piece.IsTelling, Piece.display, Piece.problem?] using otherName
  case missing => simp [Piece.IsTelling, Piece.display, Piece.problem?]
  case parts =>
    intro sequence isEmpty
    obtain ⟨_, -, rfl⟩ := List.mem_map.mp isEmpty
    exact fun _ member => (List.not_mem_nil member).elim

end Signature

/-! ## Shown types -/

theorem Build.forM_report (problems : List Problem) (session : Session) :
    (problems.forM Build.report).run session =
      ((), { session with problems := session.problems ++ problems }) := by
  induction problems generalizing session with
  | nil =>
      rw [List.append_nil]
      rfl
  | cons head tail ih =>
      refine (ih { session with problems := session.problems ++ [head] }).trans ?_
      rw [List.append_assoc]
      rfl

/-- The run of a type adds its problems to those of the session. -/
theorem Content.Fragment.run_typeUse (type : TypeUse) (scope : Content.Scope) (session : Session) :
    (Content.Fragment.typeUse type scope).run session =
      ((ofType type).map (Piece.toNode scope),
        { session with problems := session.problems ++ problems (ofType type) }) := by
  rw [typeUse, StateT.run_bind, Build.forM_report]
  rfl

namespace TypeUse

variable {type : TypeUse}

/-- The texts in the leaves that a type is shown as. -/
def leafTexts (type : TypeUse) (scope : Content.Scope) (session : Session) : List String :=
  ((Content.Fragment.typeUse type scope).run session).1.flatMap Content.Node.leafTexts

theorem leafTexts_eq (type : TypeUse) (scope : Content.Scope) (session : Session) :
    type.leafTexts scope session = (ofType type).map Piece.display := by
  rw [leafTexts, Content.Fragment.run_typeUse, List.flatMap_map, List.map_eq_flatMap]
  refine List.flatMap_congr fun piece _ => ?_
  cases piece <;> rfl

theorem map_leafTexts (types : List TypeUse) (scope : Content.Scope) (session : Session) :
    types.map (·.leafTexts scope session) = (types.map ofType).map (List.map Piece.display) := by
  rw [List.map_map]
  exact List.map_congr_left fun type _ => leafTexts_eq type scope session

/-- Texts in angle brackets with commas in between, if there are any. -/
def bracketed (arguments : List (List String)) : List String :=
  if arguments.isEmpty then [] else "<" :: (arguments.intersperse [", "]).flatten ++ [">"]

private theorem map_display_argumentPieces (arguments : List (List Piece)) :
    (argumentPieces arguments).map Piece.display =
      bracketed (arguments.map (List.map Piece.display)) := by
  have commas : (commaSeparated arguments).map Piece.display =
      ((arguments.map (List.map Piece.display)).intersperse [", "]).flatten := by
    rw [commaSeparated]
    induction arguments with
    | nil => rfl
    | cons head tail ih =>
        cases tail with
        | nil => simp
        | cons next rest =>
            rw [List.intersperse_cons_cons, List.flatten_cons, List.flatten_cons, List.map_append,
              List.map_append, ih]
            rfl
  rw [argumentPieces, bracketed, List.isEmpty_map]
  split
  · rfl
  · rw [List.map_append, List.map_append, commas]
    rfl

/-- A type without a name is a placeholder with the arguments and the mark of the type. -/
theorem leafTexts_of_isUnnamed (unnamed : type.isUnnamed) (scope : Content.Scope)
    (session : Session) :
    type.leafTexts scope session =
      Piece.placeholderText :: bracketed (type.arguments.map (·.leafTexts scope session)) ++
        if type.nullable then ["?"] else [] := by
  obtain ⟨noFunction, noPath⟩ := Bool.and_eq_true_iff.mp unnamed
  have name : namePiece type = .placeholder (.unresolvedType type) := by
    rw [namePiece, simpleName?, List.isEmpty_iff.mp noPath]
    cases type.dri <;> rfl
  rw [leafTexts_eq, map_leafTexts, ofType_eq, piecesAround, if_neg (by simpa using noFunction),
    name, List.map_append, List.map_append, map_display_argumentPieces]
  cases type.nullable <;> rfl

/-- A function type with nothing after its receiver is the receiver with a placeholder after the
dot, in parentheses if it is nullable. -/
theorem leafTexts_of_isReceiverOnly (lone : type.isReceiverOnly) (scope : Content.Scope)
    (session : Session) :
    ∃ receiver, type.arguments = [receiver] ∧
      type.leafTexts scope session =
        (if type.nullable then ["("] else []) ++ receiver.leafTexts scope session ++
          [".", Piece.placeholderText] ++ if type.nullable then [")?"] else [] := by
  obtain ⟨isFunction, single⟩ := Bool.and_eq_true_iff.mp lone
  obtain ⟨receives, single⟩ := Bool.and_eq_true_iff.mp single
  rw [hasReceiver] at receives
  obtain ⟨receiver, arguments⟩ := List.length_eq_one_iff.mp (by simpa using single)
  refine ⟨receiver, arguments, ?_⟩
  rw [leafTexts_eq, leafTexts_eq, ofType_eq, piecesAround, if_pos isFunction, arguments,
    List.map_singleton, functionPieces, if_pos receives]
  cases type.nullable <;> simp [arrowPieces, Piece.display, Piece.symbol]

theorem count_placeholderText_leafTexts (nameable : ∀ use ∈ type.nested, use.IsNameable)
    (scope : Content.Scope) (session : Session) :
    (type.leafTexts scope session).count Piece.placeholderText = type.unshownCount := by
  rw [leafTexts_eq, ← length_problems_ofType, problems, List.length_filterMap_eq_countP,
    List.count, List.countP_map]
  refine List.countP_congr fun piece member => ?_
  simpa [Piece.IsTelling] using isTelling_of_mem_ofType nameable piece member

theorem errors_of_typeUse (type : TypeUse) (scope : Content.Scope) (session : Session) :
    ((Content.Fragment.typeUse type scope).run session).2.report.errors =
      session.report.errors + type.unshownCount := by
  have graves : ∀ problem ∈ problems (ofType type), problem.severity == .error := by
    intro problem member
    obtain ⟨use, -, own⟩ := (mem_problems_ofType type).mp member
    exact beq_iff_eq.mpr (Problem.severity_of_concernsType (concernsType_of_problem? own))
  rw [Content.Fragment.run_typeUse, ← length_problems_ofType, ← List.countP_eq_length.mpr graves]
  exact List.countP_append

/-- Showing a type reports one error for each type inside it that has no name or nothing after its
receiver, and shows as many placeholders. All types inside it are shown as they are alone, and so
the types around a placeholder are. -/
theorem placeholders_of_typeUse (nameable : ∀ use ∈ type.nested, use.IsNameable)
    (scope : Content.Scope) (session : Session) :
    ((Content.Fragment.typeUse type scope).run session).2.report.errors =
        session.report.errors + type.unshownCount ∧
      (type.leafTexts scope session).count Piece.placeholderText = type.unshownCount ∧
      ∀ use ∈ type.nested,
        use.leafTexts scope session <:+: type.leafTexts scope session ∧
        (use.isUnnamed → use.leafTexts scope session =
          Piece.placeholderText :: bracketed (use.arguments.map (·.leafTexts scope session)) ++
            if use.nullable then ["?"] else []) ∧
        (use.isReceiverOnly → ∃ receiver, use.arguments = [receiver] ∧
          use.leafTexts scope session =
            (if use.nullable then ["("] else []) ++ receiver.leafTexts scope session ++
              [".", Piece.placeholderText] ++ if use.nullable then [")?"] else []) := by
  refine ⟨errors_of_typeUse type scope session,
    count_placeholderText_leafTexts nameable scope session, fun use isInside => ⟨?_,
      fun unnamed => leafTexts_of_isUnnamed unnamed scope session,
      fun lone => leafTexts_of_isReceiverOnly lone scope session⟩⟩
  rw [leafTexts_eq, leafTexts_eq]
  exact (infix_ofType type use isInside).map Piece.display

/-- A nullable type without a name, whose arguments are `Box` and a nullable function type with the
receiver `Box` and nothing after it. -/
def unshown : TypeUse where
  arguments :=
    [{ path := ["Box"] },
      { path := ["Function"], arguments := [{ path := ["Box"] }], nullable := true
        function := some { hasReceiver := true } }]
  nullable := true

/-- The type is shown as `???<Box, (Box.???)?>?`. -/
theorem placeholders_of_unshown :
    (∀ use ∈ unshown.nested, use.IsNameable) ∧
      ((Content.Fragment.typeUse unshown {}).run {}).2.report.errors = 2 ∧
      (unshown.leafTexts {} {}).count Piece.placeholderText = 2 ∧
      String.join (unshown.leafTexts {} {}) = "???<Box, (Box.???)?>?" := by
  have nameable : ∀ use ∈ unshown.nested, use.IsNameable := by decide +kernel
  obtain ⟨errors, count, -⟩ := placeholders_of_typeUse nameable {} {}
  have unshownCount : unshown.unshownCount = 2 := by decide +kernel
  rw [unshownCount] at errors count
  exact ⟨nameable, errors, count, by decide +kernel⟩

end TypeUse

end DocPages
