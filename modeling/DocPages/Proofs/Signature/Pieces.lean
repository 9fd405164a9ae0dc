import DocPages.Collection.Elementwise
import DocPages.Signature.Type
import Mathlib.Data.List.Infix
import Mathlib.Data.List.Perm.Basic
import Mathlib.Data.List.Flatten

/-!
# Pieces of types

A type is shown as the pieces that it adds itself, which are its name and marks, around those of its
arguments. However deep a type is nested, its pieces therefore stand together among those of the
outer type, and up to their order the pieces of a type are what all the types inside it add.
-/

namespace DocPages

namespace TypeUse

mutual

/-- The type and all types inside it, a type before its arguments. -/
def nested : TypeUse → List TypeUse
  | ⟨dri, path, arguments, nullable, function⟩ =>
    ⟨dri, path, arguments, nullable, function⟩ :: nestedOfList arguments

/-- The types of a list and all types inside them. -/
def nestedOfList : List TypeUse → List TypeUse
  | [] => []
  | head :: tail => head.nested ++ nestedOfList tail

end

end TypeUse

namespace Signature

/-! ## A type around its arguments -/

theorem ofTypes_eq_map (types : List TypeUse) : ofTypes types = types.map ofType :=
  eq_map_of_cons (by rw [ofTypes]) (fun _ _ => by rw [ofTypes]) types

/-- The pieces of a type around those of its arguments. -/
def piecesAround (type : TypeUse) (arguments : List (List Piece)) : List Piece :=
  if type.isFunctionType then functionPieces type arguments
  else [namePiece type] ++ argumentPieces arguments ++ if type.nullable then [.symbol "?"] else []

theorem ofType_eq (type : TypeUse) :
    ofType type = piecesAround type (type.arguments.map ofType) := by
  obtain ⟨dri, path, arguments, nullable, function⟩ := type
  rw [ofType, ofTypes_eq_map]
  rfl

/-- The pieces that a type adds to those of its arguments. -/
def ownPieces (type : TypeUse) : List Piece := piecesAround type (type.arguments.map fun _ => [])

/-- Where pieces are own ones and others, they still are with own ones before and after them. -/
private theorem append_append_perm {pieces own others : List Piece} (before after : List Piece)
    (perm : pieces.Perm (own ++ others)) :
    (before ++ pieces ++ after).Perm (before ++ own ++ after ++ others) := by
  have moved : (pieces ++ after).Perm (own ++ after ++ others) := by
    refine (perm.append_right after).trans ?_
    rw [List.append_assoc, List.append_assoc]
    exact List.perm_append_comm.append_left own
  simpa only [List.append_assoc] using moved.append_left before

private theorem commaSeparated_perm (sequences : List (List Piece)) :
    (commaSeparated sequences).Perm
      (commaSeparated (sequences.map fun _ => []) ++ sequences.flatten) := by
  rw [List.perm_iff_count, commaSeparated, commaSeparated]
  intro piece
  induction sequences with
  | nil => rfl
  | cons head tail ih =>
      cases tail with
      | nil => simp
      | cons next rest =>
          simp only [List.map_cons, List.intersperse_cons_cons, List.flatten_cons,
            List.count_append, List.count_nil] at ih ⊢
          omega

private theorem argumentPieces_perm (arguments : List (List Piece)) :
    (argumentPieces arguments).Perm
      (argumentPieces (arguments.map fun _ => []) ++ arguments.flatten) := by
  cases arguments with
  | nil => rfl
  | cons head tail => exact append_append_perm _ _ (commaSeparated_perm (head :: tail))

private theorem arrowPieces_perm (type : TypeUse) (arguments : List (List Piece)) :
    (arrowPieces type arguments).Perm
      (arrowPieces type (arguments.map fun _ => []) ++ arguments.flatten) := by
  rcases List.eq_nil_or_concat' arguments with rfl | ⟨parameters, result, rfl⟩
  · simp
  · have parts := (append_append_perm [.symbol "("] [.symbol ") -> "]
      (commaSeparated_perm parameters)).append_right result
    simpa [arrowPieces] using parts

private theorem functionPieces_perm (type : TypeUse) (arguments : List (List Piece)) :
    (functionPieces type arguments).Perm
      (functionPieces type (arguments.map fun _ => []) ++ arguments.flatten) := by
  have enclosed : ∀ {pieces own others : List Piece}, pieces.Perm (own ++ others) →
      (if type.nullable then [.symbol "("] ++ pieces ++ [.symbol ")?"] else pieces).Perm
        ((if type.nullable then [.symbol "("] ++ own ++ [.symbol ")?"] else own) ++ others) := by
    intro pieces own others perm
    split
    · exact append_append_perm _ _ perm
    · exact perm
  cases arguments with
  | nil => simp
  | cons receiver rest =>
      rw [List.map_cons]
      refine enclosed ?_
      split
      · simp only [List.append_assoc, List.nil_append, List.flatten_cons]
        refine (List.perm_append_comm_assoc _ _ _).trans (.append_left _ ?_)
        have parts := (arrowPieces_perm type rest).append_left receiver
        exact parts.trans (List.perm_append_comm_assoc _ _ _)
      · exact arrowPieces_perm type (receiver :: rest)

/-- The pieces of a type are its own and those of its arguments. -/
private theorem piecesAround_perm (type : TypeUse) (arguments : List (List Piece)) :
    (piecesAround type arguments).Perm
      (piecesAround type (arguments.map fun _ => []) ++ arguments.flatten) := by
  rw [piecesAround, piecesAround]
  split
  · exact functionPieces_perm type arguments
  · exact append_append_perm _ _ (argumentPieces_perm arguments)

mutual

/-- Up to their order, the pieces of a type are those that the types inside it add. -/
theorem ofType_perm : (type : TypeUse) → (ofType type).Perm (type.nested.flatMap ownPieces)
  | ⟨dri, path, arguments, nullable, function⟩ => by
    rw [ofType_eq, TypeUse.nested, List.flatMap_cons]
    refine (piecesAround_perm _ _).trans ?_
    rw [List.map_map]
    exact (flatten_ofTypes_perm arguments).append_left _

theorem flatten_ofTypes_perm : (types : List TypeUse) →
    (types.map ofType).flatten.Perm ((TypeUse.nestedOfList types).flatMap ownPieces)
  | [] => .nil
  | head :: tail => by
    rw [List.map_cons, List.flatten_cons, TypeUse.nestedOfList, List.flatMap_append]
    exact (ofType_perm head).append (flatten_ofTypes_perm tail)

end

/-! ## Types inside types -/

private theorem mem_intersperse {α : Type} {separator element : α} {elements : List α}
    (member : element ∈ elements.intersperse separator) :
    element ∈ elements ∨ element = separator := by
  induction elements with
  | nil => exact .inl member
  | cons head tail ih =>
      cases tail with
      | nil => exact .inl member
      | cons next rest =>
          rw [List.intersperse_cons_cons, List.mem_cons, List.mem_cons] at member
          rcases member with rfl | rfl | inTail
          · exact .inl List.mem_cons_self
          · exact .inr rfl
          · exact (ih inTail).imp_left (List.mem_cons_of_mem head)

private theorem mem_intersperse_of_mem {α : Type} (separator : α) {element : α} {elements : List α}
    (member : element ∈ elements) : element ∈ elements.intersperse separator := by
  induction elements with
  | nil => cases member
  | cons head tail ih =>
      cases tail with
      | nil => exact member
      | cons next rest =>
          rw [List.intersperse_cons_cons]
          rcases List.mem_cons.mp member with rfl | inTail
          · exact List.mem_cons_self
          · exact List.mem_cons_of_mem _ (List.mem_cons_of_mem _ (ih inTail))

private theorem infix_commaSeparated {sequence : List Piece} {sequences : List (List Piece)}
    (member : sequence ∈ sequences) : sequence <:+: commaSeparated sequences :=
  List.infix_of_mem_flatten (mem_intersperse_of_mem _ member)

private theorem infix_arrowPieces (type : TypeUse) {sequence : List Piece}
    {sequences : List (List Piece)} (member : sequence ∈ sequences) :
    sequence <:+: arrowPieces type sequences := by
  rcases List.eq_nil_or_concat' sequences with rfl | ⟨parameters, result, rfl⟩
  · cases member
  · rw [arrowPieces, List.getLast?_concat, List.dropLast_concat]
    rcases List.mem_append.mp member with isParameter | isResult
    · have inside := infix_commaSeparated isParameter
      exact (inside.trans (List.infix_append _ _ _)).trans (List.prefix_append _ _).isInfix
    · obtain rfl := List.mem_singleton.mp isResult
      exact (List.suffix_append _ _).isInfix

/-- The pieces of an argument stand together among those of the type. -/
private theorem infix_piecesAround (type : TypeUse) {sequence : List Piece}
    {sequences : List (List Piece)} (member : sequence ∈ sequences) :
    sequence <:+: piecesAround type sequences := by
  obtain ⟨receiver, rest, rfl⟩ := List.exists_cons_of_ne_nil (List.ne_nil_of_mem member)
  have enclosed : ∀ inner : List Piece, sequence <:+: inner → sequence <:+:
      if type.nullable then [.symbol "("] ++ inner ++ [.symbol ")?"] else inner := by
    intro inner inside
    split
    · exact inside.trans (List.infix_append _ _ _)
    · exact inside
  rw [piecesAround]
  split
  · refine enclosed _ ?_
    split
    · rcases List.mem_cons.mp member with rfl | inRest
      · rw [List.append_assoc]
        exact (List.prefix_append _ _).isInfix
      · exact (infix_arrowPieces type inRest).trans (List.suffix_append _ _).isInfix
    · exact infix_arrowPieces type member
  · have inside : sequence <:+: argumentPieces (receiver :: rest) :=
      (infix_commaSeparated member).trans (List.infix_append _ _ _)
    exact inside.trans (List.infix_append _ _ _)

mutual

/-- The pieces of a type inside another stand together among those of the outer one. -/
theorem infix_ofType : (type : TypeUse) → ∀ use ∈ type.nested, ofType use <:+: ofType type
  | ⟨dri, path, arguments, nullable, function⟩ => by
    intro use member
    rw [TypeUse.nested] at member
    rcases List.mem_cons.mp member with rfl | inArguments
    · exact List.infix_rfl
    · obtain ⟨argument, isArgument, inside⟩ := exists_infix_ofType arguments use inArguments
      refine inside.trans ?_
      rw [ofType_eq ⟨dri, path, arguments, nullable, function⟩]
      exact infix_piecesAround _ (List.mem_map_of_mem isArgument)

theorem exists_infix_ofType : (types : List TypeUse) → ∀ use ∈ TypeUse.nestedOfList types,
    ∃ type ∈ types, ofType use <:+: ofType type
  | [] => fun _ member => nomatch member
  | head :: tail => by
    intro use member
    rw [TypeUse.nestedOfList] at member
    rcases List.mem_append.mp member with inHead | inTail
    · exact ⟨head, List.mem_cons_self, infix_ofType head use inHead⟩
    · obtain ⟨type, isType, inside⟩ := exists_infix_ofType tail use inTail
      exact ⟨type, List.mem_cons_of_mem head isType, inside⟩

end

/-! ## What holds of all pieces -/

/-- The texts of the marks of types. -/
def typeMarks : List String := ["<", ", ", ">", "?", "(", ") -> ", ".", ")?"]

section

variable {holds : Piece → Prop} (marks : ∀ mark ∈ typeMarks, holds (.symbol mark))

include marks

private theorem forall_mem_commaSeparated {sequences : List (List Piece)}
    (parts : ∀ sequence ∈ sequences, ∀ piece ∈ sequence, holds piece) :
    ∀ piece ∈ commaSeparated sequences, holds piece := by
  intro piece member
  obtain ⟨sequence, isSequence, inSequence⟩ := List.mem_flatten.mp member
  rcases mem_intersperse isSequence with isPart | rfl
  · exact parts sequence isPart piece inSequence
  · rw [List.mem_singleton.mp inSequence]
    exact marks ", " (by decide)

private theorem forall_mem_arrowPieces {type : TypeUse} {sequences : List (List Piece)}
    (missing : holds (.placeholder (.missingReturnType type)))
    (parts : ∀ sequence ∈ sequences, ∀ piece ∈ sequence, holds piece) :
    ∀ piece ∈ arrowPieces type sequences, holds piece := by
  rcases List.eq_nil_or_concat' sequences with rfl | ⟨parameters, result, rfl⟩
  · exact List.forall_mem_singleton.mpr missing
  · obtain ⟨ofParameters, ofResult⟩ := List.forall_mem_append.mp parts
    rw [arrowPieces, List.getLast?_concat, List.dropLast_concat]
    simp only [List.forall_mem_append, List.forall_mem_singleton]
    exact ⟨⟨⟨marks _ (by decide), forall_mem_commaSeparated marks ofParameters⟩,
      marks _ (by decide)⟩, ofResult result List.mem_cons_self⟩

/-- What holds of the marks, of the name or the placeholder of a type, and of all pieces of its
arguments, holds of all its pieces. -/
theorem forall_mem_piecesAround {type : TypeUse} {sequences : List (List Piece)}
    (name : holds (namePiece type))
    (missing : holds (.placeholder (.missingReturnType type)))
    (parts : ∀ sequence ∈ sequences, ∀ piece ∈ sequence, holds piece) :
    ∀ piece ∈ piecesAround type sequences, holds piece := by
  have ofMark : ∀ mark ∈ typeMarks, ∀ piece ∈ [Piece.symbol mark], holds piece :=
    fun mark isMark => List.forall_mem_singleton.mpr (marks mark isMark)
  have enclosed : ∀ inner : List Piece, (∀ piece ∈ inner, holds piece) → ∀ piece ∈
      if type.nullable then [.symbol "("] ++ inner ++ [.symbol ")?"] else inner, holds piece := by
    intro inner each
    split
    · simp only [List.forall_mem_append]
      exact ⟨⟨ofMark _ (by decide), each⟩, ofMark _ (by decide)⟩
    · exact each
  rw [piecesAround]
  split
  · refine enclosed _ ?_
    cases sequences with
    | nil => exact forall_mem_arrowPieces marks missing parts
    | cons receiver rest =>
        obtain ⟨ofReceiver, ofRest⟩ := List.forall_mem_cons.mp parts
        dsimp only
        split
        · simp only [List.forall_mem_append]
          exact ⟨⟨ofReceiver, ofMark _ (by decide)⟩, forall_mem_arrowPieces marks missing ofRest⟩
        · exact forall_mem_arrowPieces marks missing parts
  · simp only [List.forall_mem_append]
    refine ⟨⟨List.forall_mem_singleton.mpr name, ?_⟩, ?_⟩
    · rw [argumentPieces]
      split
      · exact fun _ member => (List.not_mem_nil member).elim
      · simp only [List.forall_mem_append]
        exact ⟨⟨ofMark _ (by decide), forall_mem_commaSeparated marks parts⟩, ofMark _ (by decide)⟩
    · split
      · exact ofMark _ (by decide)
      · exact fun _ member => (List.not_mem_nil member).elim

end

end Signature

end DocPages
