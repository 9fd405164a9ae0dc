import DocPages.Collection.Elementwise
import DocPages.Content.Traversal
import DocPages.Proofs.Signature.Problems
import DocPages.Proofs.Signature.WrittenTypes
import DocPages.Signature.Cache

/-!
# Texts of types

What the text of a type tells about it. Names of function types are not shown, and everything else
is, but a function type as the receiver of a function type stands without parentheses unless it is
nullable. The text then is that of another type: the one whose result takes the dot.
-/

namespace DocPages

open Signature

namespace TypeUse

/-! ## Legible types -/

/-- The type itself is told by its text, if its arguments are: it is shown with plain names or is a
function type with a result besides a receiver. -/
structure IsLegible (type : TypeUse) : Prop where
  unresolved : type.function = none → type.dri = none
  present : type.function = none → type.path ≠ []
  plain : type.function = none → ∀ segment ∈ type.path, Text.IsPlain marks segment
  returnType : type.function.isSome → (if type.hasReceiver then 2 else 1) ≤ type.arguments.length

instance (type : TypeUse) : Decidable type.IsLegible :=
  decidable_of_iff
    ((type.function = none → type.dri = none) ∧ (type.function = none → type.path ≠ []) ∧
      (type.function = none → ∀ segment ∈ type.path, Text.IsPlain marks segment) ∧
      (type.function.isSome → (if type.hasReceiver then 2 else 1) ≤ type.arguments.length))
    ⟨fun ⟨unresolved, present, plain, returnType⟩ => ⟨unresolved, present, plain, returnType⟩,
      fun ⟨unresolved, present, plain, returnType⟩ => ⟨unresolved, present, plain, returnType⟩⟩

/-- The receiver of the type is a function type that stands without parentheses. -/
def HasOpenReceiver (type : TypeUse) : Prop :=
  type.hasReceiver ∧
    type.arguments.head?.any fun receiver => receiver.function.isSome && !receiver.nullable

instance (type : TypeUse) : Decidable type.HasOpenReceiver :=
  inferInstanceAs (Decidable (_ ∧ _))

theorem forall_mem_nestedOfList {holds : TypeUse → Prop} {types : List TypeUse} :
    (∀ use ∈ nestedOfList types, holds use) ↔ ∀ type ∈ types, ∀ use ∈ type.nested, holds use := by
  induction types with
  | nil => simp [nestedOfList]
  | cons head tail ih => rw [nestedOfList, List.forall_mem_append, ih, List.forall_mem_cons]

/-- What holds of all types inside a type holds of the type and of all types inside its
arguments. -/
theorem forall_mem_nested {holds : TypeUse → Prop} {type : TypeUse} :
    (∀ use ∈ type.nested, holds use) ↔
      holds type ∧ ∀ argument ∈ type.arguments, ∀ use ∈ argument.nested, holds use := by
  obtain ⟨dri, path, arguments, nullable, function⟩ := type
  rw [nested, List.forall_mem_cons, forall_mem_nestedOfList]

/-- A legible type is a named type, or a function type with or without a receiver before its
parameters and its result. -/
@[elab_as_elim]
theorem legibleInduction {motive : TypeUse → Prop}
    (named : ∀ path arguments nullable, path ≠ [] →
      (∀ segment ∈ path, Text.IsPlain marks segment) →
        (∀ argument ∈ arguments, motive argument) → motive { path, arguments, nullable })
    (arrow : ∀ dri path parameters result nullable, (∀ parameter ∈ parameters, motive parameter) →
      motive result → motive ⟨dri, path, parameters ++ [result], nullable, some ⟨false⟩⟩)
    (extension : ∀ dri path receiver parameters result nullable, motive receiver →
      (∀ parameter ∈ parameters, motive parameter) → motive result →
        motive ⟨dri, path, receiver :: (parameters ++ [result]), nullable, some ⟨true⟩⟩)
    (type : TypeUse) (legible : ∀ use ∈ type.nested, use.IsLegible) : motive type := by
  match type with
  | ⟨dri, path, arguments, nullable, function⟩ =>
  obtain ⟨own, below⟩ := forall_mem_nested.mp legible
  have parts : ∀ argument ∈ arguments, motive argument := fun argument _member =>
    legibleInduction named arrow extension argument (below argument _member)
  cases function with
  | none =>
      obtain rfl := own.unresolved rfl
      exact named path arguments nullable (own.present rfl) (own.plain rfl) parts
  | some form =>
      obtain ⟨hasReceiver⟩ := form
      have enough := own.returnType rfl
      cases hasReceiver with
      | false =>
          obtain ⟨parameters, result, rfl⟩ :=
            (List.eq_nil_or_concat' arguments).resolve_left (List.ne_nil_of_length_pos enough)
          obtain ⟨ofParameters, ofResult⟩ := List.forall_mem_append.mp parts
          exact arrow dri path parameters result nullable ofParameters (ofResult result (by simp))
      | true =>
          obtain ⟨receiver, rest, rfl⟩ := List.exists_cons_of_length_pos (Nat.lt_of_succ_lt enough)
          obtain ⟨parameters, result, rfl⟩ := (List.eq_nil_or_concat' rest).resolve_left
            (List.ne_nil_of_length_pos (Nat.lt_of_succ_lt_succ enough))
          obtain ⟨ofReceiver, ofRest⟩ := List.forall_mem_cons.mp parts
          obtain ⟨ofParameters, ofResult⟩ := List.forall_mem_append.mp ofRest
          exact extension dri path receiver parameters result nullable ofReceiver ofParameters
            (ofResult result (by simp))
termination_by sizeOf type
decreasing_by
  have smaller := List.sizeOf_lt_of_mem _member
  simp
  omega

end TypeUse

/-! ## Readings -/

namespace Signature

namespace QualifiedName

instance : Inhabited QualifiedName :=
  ⟨{ segments := ["_"], present := by decide, plain := by decide }⟩

/-- The name with the segments, if it can be read. -/
def ofPath? (path : List String) : Option QualifiedName :=
  if readable : path ≠ [] ∧ ∀ segment ∈ path, Text.IsPlain marks segment then
    some ⟨path, readable.1, readable.2⟩
  else none

end QualifiedName

namespace WrittenType

instance : Inhabited WrittenType := ⟨.atom (.named default [] false)⟩

/-- The type that is read where a dot and a function type stand behind a type: only a type that ends
by itself is the receiver, and otherwise the result of the type goes on with the dot. -/
def extend (receiver : WrittenType) (parameters : List WrittenType) (result : WrittenType) :
    WrittenType :=
  match receiver with
  | .atom alone => .extension alone parameters result
  | .arrow parameters' result' => .arrow parameters' (result'.extend parameters result)
  | .extension receiver' parameters' result' =>
    .extension receiver' parameters' (result'.extend parameters result)

/-- A function type, in parentheses if it is nullable. -/
def enclosed (nullable : Bool) (function : WrittenType) : WrittenType :=
  if nullable then .atom (.nullable function) else function

/-- However the text is read, the parts stand one after another. -/
theorem text_extend (receiver : WrittenType) (parameters : List WrittenType)
    (result : WrittenType) :
    (receiver.extend parameters result).text =
      receiver.text ++ '.' :: arrowText (textsOfList parameters) result.text := by
  match receiver with
  | .atom alone => rfl
  | .arrow parameters' result' =>
    rw [extend, text, text_extend result', text]
    simp [arrowText]
  | .extension receiver' parameters' result' =>
    rw [extend, text, text_extend result', text]
    simp [arrowText]

end WrittenType

end Signature

namespace TypeUse

mutual

/-- The type as its text is read. -/
def written : TypeUse → WrittenType
  | ⟨_, path, arguments, nullable, none⟩ =>
    .atom (.named ((QualifiedName.ofPath? path).getD default) (writtenOfList arguments) nullable)
  | ⟨_, _, arguments, nullable, some ⟨false⟩⟩ =>
    let parts := writtenOfList arguments
    .enclosed nullable (.arrow parts.dropLast (parts.getLast?.getD default))
  | ⟨_, _, arguments, nullable, some ⟨true⟩⟩ =>
    let parts := writtenOfList arguments
    .enclosed nullable ((parts.head?.getD default).extend parts.tail.dropLast
      (parts.getLast?.getD default))

/-- The types of a list as their texts are read. -/
def writtenOfList : List TypeUse → List WrittenType
  | [] => []
  | head :: tail => head.written :: writtenOfList tail

end

theorem writtenOfList_eq_map (types : List TypeUse) : writtenOfList types = types.map written :=
  eq_map_of_cons (by rw [writtenOfList]) (fun _ _ => by rw [writtenOfList]) types

theorem written_named {path : List String} {arguments : List TypeUse} {nullable : Bool}
    (present : path ≠ [])
    (plain : ∀ segment ∈ path, Text.IsPlain marks segment) :
    written { path, arguments, nullable } =
      .atom (.named ⟨path, present, plain⟩ (arguments.map written) nullable) := by
  rw [written, writtenOfList_eq_map, QualifiedName.ofPath?, dif_pos ⟨present, plain⟩]
  rfl

theorem written_arrow (dri : Option Dri) (path : List String) (parameters : List TypeUse)
    (result : TypeUse) (nullable : Bool) :
    written ⟨dri, path, parameters ++ [result], nullable, some ⟨false⟩⟩ =
      .enclosed nullable (.arrow (parameters.map written) result.written) := by
  simp [written, writtenOfList_eq_map]

theorem written_extension (dri : Option Dri) (path : List String) (receiver : TypeUse)
    (parameters : List TypeUse) (result : TypeUse) (nullable : Bool) :
    written ⟨dri, path, receiver :: (parameters ++ [result]), nullable, some ⟨true⟩⟩ =
      .enclosed nullable (receiver.written.extend (parameters.map written) result.written) := by
  have last : (receiver.written :: (parameters.map written ++ [result.written])).getLast? =
      some result.written := by
    rw [← List.cons_append, List.getLast?_concat]
  simp [written, writtenOfList_eq_map, last]

end TypeUse

/-! ## Texts -/

namespace Signature

/-- The characters of pieces. -/
def textOf (pieces : List Piece) : List Char := pieces.flatMap fun piece => piece.display.toList

@[simp] theorem textOf_nil : textOf [] = [] := rfl

@[simp] theorem textOf_append (left right : List Piece) :
    textOf (left ++ right) = textOf left ++ textOf right := List.flatMap_append

@[simp] theorem textOf_cons (piece : Piece) (pieces : List Piece) :
    textOf (piece :: pieces) = piece.display.toList ++ textOf pieces := rfl

@[simp] theorem display_symbol (body : String) : (Piece.symbol body).display = body := rfl

theorem textOf_commaSeparated (sequences : List (List Piece)) :
    textOf (commaSeparated sequences) = [',', ' '].intercalate (sequences.map textOf) := by
  rw [commaSeparated]
  induction sequences with
  | nil => rfl
  | cons head tail ih =>
      cases tail with
      | nil => simp
      | cons next rest =>
          rw [List.map_cons] at ih
          simp [List.intersperse_cons_cons, List.intercalate_cons_cons, ih]

private theorem ofType_function {type : TypeUse} (isFunction : type.isFunctionType) :
    ofType type = functionPieces type (type.arguments.map ofType) := by
  rw [ofType_eq, piecesAround, if_pos isFunction]

private theorem ofType_named {type : TypeUse} (noFunction : ¬type.isFunctionType) :
    ofType type = [namePiece type] ++ argumentPieces (type.arguments.map ofType) ++
      if type.nullable then [.symbol "?"] else [] := by
  rw [ofType_eq, piecesAround, if_neg noFunction]

private theorem toList_display_namePiece {type : TypeUse} (unresolved : type.dri = none)
    (present : type.path ≠ []) :
    (namePiece type).display.toList = ['.'].intercalate (type.path.map String.toList) := by
  have simple : type.simpleName? = some (type.path.getLast present) :=
    List.getLast?_eq_some_getLast present
  simp [namePiece, unresolved, simple, TypeUse.qualifiedName, String.toList_intercalate]

private theorem textOf_argumentPieces (arguments : List (List Piece)) :
    textOf (argumentPieces arguments) = argumentText (arguments.map textOf) := by
  cases arguments with
  | nil => rfl
  | cons head tail => simp [argumentPieces, argumentText, textOf_commaSeparated]

private theorem textOf_arrowPieces (type : TypeUse) (parameters : List (List Piece))
    (result : List Piece) :
    textOf (arrowPieces type (parameters ++ [result])) =
      arrowText (parameters.map textOf) (textOf result) := by
  simp [arrowPieces, arrowText, textOf_commaSeparated]

/-- The text of a function type, with parentheses around it if it is nullable. -/
private def enclosedText (nullable : Bool) (text : List Char) : List Char :=
  if nullable then '(' :: text ++ [')', '?'] else text

private theorem text_enclosed (nullable : Bool) (function : WrittenType) :
    (WrittenType.enclosed nullable function).text = enclosedText nullable function.text := by
  cases nullable <;> rfl

private theorem textOf_functionPieces_arrow {type : TypeUse} (noReceiver : type.hasReceiver = false)
    (parameters : List (List Piece)) (result : List Piece) :
    textOf (functionPieces type (parameters ++ [result])) =
      enclosedText type.nullable (arrowText (parameters.map textOf) (textOf result)) := by
  rw [TypeUse.hasReceiver] at noReceiver
  rw [← textOf_arrowPieces type, enclosedText]
  cases parameters <;> cases nullable : type.nullable <;>
    simp [functionPieces, noReceiver, nullable]

private theorem textOf_functionPieces_extension {type : TypeUse} (receives : type.hasReceiver)
    (receiver : List Piece) (parameters : List (List Piece)) (result : List Piece) :
    textOf (functionPieces type (receiver :: (parameters ++ [result]))) =
      enclosedText type.nullable
        (textOf receiver ++ '.' :: arrowText (parameters.map textOf) (textOf result)) := by
  rw [TypeUse.hasReceiver] at receives
  rw [← textOf_arrowPieces type, enclosedText]
  cases nullable : type.nullable <;> simp [functionPieces, receives, nullable]

/-- The text of a legible type is that of the type as it is read. -/
theorem textOf_ofType (type : TypeUse) (legible : ∀ use ∈ type.nested, use.IsLegible) :
    textOf (ofType type) = type.written.text := by
  have texts : ∀ {types : List TypeUse},
      (∀ type ∈ types, textOf (ofType type) = type.written.text) →
        (types.map ofType).map textOf = textsOfList (types.map TypeUse.written) := by
    intro types each
    rw [textsOfList_eq_map, List.map_map, List.map_map]
    exact List.map_congr_left each
  refine TypeUse.legibleInduction ?named ?arrow ?extension type legible
  case named =>
    intro path arguments nullable present plain ofArguments
    have mark : textOf (if nullable then [.symbol "?"] else []) = nullableText nullable := by
      cases nullable <;> rfl
    rw [ofType_named (by simp [TypeUse.isFunctionType]), textOf_append, textOf_append,
      textOf_argumentPieces, texts ofArguments, mark, textOf_cons,
      toList_display_namePiece rfl present, textOf_nil, List.append_nil,
      TypeUse.written_named present plain]
    rfl
  case arrow =>
    intro dri path parameters result nullable ofParameters ofResult
    rw [ofType_function (by simp [TypeUse.isFunctionType]), List.map_append, List.map_singleton,
      textOf_functionPieces_arrow rfl, texts ofParameters, ofResult, TypeUse.written_arrow,
      text_enclosed]
    rfl
  case extension =>
    intro dri path receiver parameters result nullable ofReceiver ofParameters ofResult
    rw [ofType_function rfl, List.map_cons, List.map_append, List.map_singleton,
      textOf_functionPieces_extension rfl, texts ofParameters, ofResult, ofReceiver,
      TypeUse.written_extension, text_enclosed, WrittenType.text_extend]

end Signature

namespace TypeUse

/-- The text that a type is shown as. -/
def rendered (type : TypeUse) (scope : Content.Scope) (session : Session) : String :=
  String.join (((Content.Fragment.typeUse type scope).run session).1.map Content.Node.textContent)

theorem toList_rendered (type : TypeUse) (scope : Content.Scope) (session : Session) :
    (type.rendered scope session).toList = textOf (ofType type) := by
  have nodes : ((Content.Fragment.typeUse type scope).run session).1 =
      (ofType type).map (Piece.toNode scope) := rfl
  have texts : ∀ piece : Piece, (piece.toNode scope).textContent.toList = piece.display.toList := by
    intro piece
    cases piece <;> simp [Piece.toNode, Content.Node.textContent, Content.Node.walk,
      Content.Node.walkList, Content.Node.ownText, Piece.display]
  rw [rendered, nodes, String.toList_join, textOf, List.map_map, List.flatMap_map]
  exact List.flatMap_congr fun piece _ => texts piece

end TypeUse

/-! ## Types without the names of function types -/

namespace Signature

mutual

/-- The type that is read, without the names of function types. -/
def WrittenType.toUse : WrittenType → TypeUse
  | .atom atom => atom.toUse
  | .arrow parameters result =>
    { arguments := usesOfList parameters ++ [result.toUse], function := some {} }
  | .extension receiver parameters result =>
    { arguments := receiver.toUse :: (usesOfList parameters ++ [result.toUse])
      function := some { hasReceiver := true } }

/-- The type that is read as one that ends by itself. -/
def WrittenAtom.toUse : WrittenAtom → TypeUse
  | .named name arguments nullable =>
    { path := name.segments, arguments := usesOfList arguments, nullable }
  | .nullable function => { function.toUse with nullable := true }

/-- The types of a list that are read. -/
def usesOfList : List WrittenType → List TypeUse
  | [] => []
  | head :: tail => head.toUse :: usesOfList tail

end

theorem usesOfList_eq_map (types : List WrittenType) :
    usesOfList types = types.map WrittenType.toUse :=
  eq_map_of_cons (by rw [usesOfList]) (fun _ _ => by rw [usesOfList]) types

private theorem WrittenType.toUse_enclosed (nullable : Bool) {function : WrittenType}
    (isPlain : function.toUse.nullable = false) :
    (enclosed nullable function).toUse = { function.toUse with nullable } := by
  cases nullable with
  | false =>
      change function.toUse = { function.toUse with nullable := false }
      generalize function.toUse = use at isPlain
      obtain ⟨dri, path, arguments, nullable, form⟩ := use
      exact congrArg (TypeUse.mk dri path arguments · form) isPlain
  | true => rfl

end Signature

namespace TypeUse

mutual

/-- The type with no names of function types, which are not shown. -/
def withoutFunctionNames : TypeUse → TypeUse
  | ⟨dri, path, arguments, nullable, none⟩ =>
    ⟨dri, path, withoutFunctionNamesOfList arguments, nullable, none⟩
  | ⟨_, _, arguments, nullable, some form⟩ =>
    ⟨none, [], withoutFunctionNamesOfList arguments, nullable, some form⟩

/-- The types of a list with no names of function types. -/
def withoutFunctionNamesOfList : List TypeUse → List TypeUse
  | [] => []
  | head :: tail => head.withoutFunctionNames :: withoutFunctionNamesOfList tail

end

theorem withoutFunctionNamesOfList_eq_map (types : List TypeUse) :
    withoutFunctionNamesOfList types = types.map withoutFunctionNames :=
  eq_map_of_cons (by rw [withoutFunctionNamesOfList])
    (fun _ _ => by rw [withoutFunctionNamesOfList]) types

mutual

/-- The names of function types have no part in how a type is read. -/
theorem written_withoutFunctionNames : (type : TypeUse) →
    type.withoutFunctionNames.written = type.written
  | ⟨_, _, arguments, _, none⟩ => by
    rw [withoutFunctionNames, written, written, writtenOfList_withoutFunctionNames arguments]
  | ⟨_, _, arguments, _, some ⟨false⟩⟩ => by
    rw [withoutFunctionNames, written, written, writtenOfList_withoutFunctionNames arguments]
  | ⟨_, _, arguments, _, some ⟨true⟩⟩ => by
    rw [withoutFunctionNames, written, written, writtenOfList_withoutFunctionNames arguments]

theorem writtenOfList_withoutFunctionNames : (types : List TypeUse) →
    writtenOfList (withoutFunctionNamesOfList types) = writtenOfList types
  | [] => rfl
  | head :: tail => by
    rw [withoutFunctionNamesOfList, writtenOfList, writtenOfList, written_withoutFunctionNames head,
      writtenOfList_withoutFunctionNames tail]

end

/-- A type that is no function type without parentheses is read as one that ends by itself. -/
private theorem exists_atom {type : TypeUse}
    (closed : ¬(type.function.isSome && !type.nullable)) :
    ∃ alone, type.written = .atom alone := by
  obtain ⟨dri, path, arguments, nullable, function⟩ := type
  cases function with
  | none => simp [written]
  | some form =>
      obtain rfl : nullable = true := by simpa using closed
      obtain ⟨hasReceiver⟩ := form
      cases hasReceiver <;> simp [written, WrittenType.enclosed]

/-- A legible type whose receivers stand in parentheses where they have to is read as what it is. -/
theorem toUse_written (type : TypeUse) (legible : ∀ use ∈ type.nested, use.IsLegible)
    (closed : ∀ use ∈ type.nested, ¬use.HasOpenReceiver) :
    type.written.toUse = type.withoutFunctionNames := by
  have uses : ∀ {types : List TypeUse},
      (∀ type ∈ types, (∀ use ∈ type.nested, ¬use.HasOpenReceiver) →
        type.written.toUse = type.withoutFunctionNames) →
      (∀ type ∈ types, ∀ use ∈ type.nested, ¬use.HasOpenReceiver) →
        usesOfList (types.map written) = types.map withoutFunctionNames := by
    intro types each closed
    rw [usesOfList_eq_map, List.map_map]
    exact List.map_congr_left fun type member => each type member (closed type member)
  revert closed
  refine legibleInduction ?named ?arrow ?extension type legible
  case named =>
    intro path arguments nullable present plain ofArguments closed
    obtain ⟨-, closedArguments⟩ := forall_mem_nested.mp closed
    rw [written_named present plain, WrittenType.toUse, WrittenAtom.toUse,
      uses ofArguments closedArguments, withoutFunctionNames, withoutFunctionNamesOfList_eq_map]
  case arrow =>
    intro dri path parameters result nullable ofParameters ofResult closed
    obtain ⟨-, closedParts⟩ := forall_mem_nested.mp closed
    obtain ⟨closedParameters, closedResult⟩ := List.forall_mem_append.mp closedParts
    rw [written_arrow, WrittenType.toUse_enclosed nullable rfl, WrittenType.toUse,
      uses ofParameters closedParameters, ofResult (closedResult result (by simp)),
      withoutFunctionNames, withoutFunctionNamesOfList_eq_map, List.map_append, List.map_singleton]
  case extension =>
    intro dri path receiver parameters result nullable ofReceiver ofParameters ofResult closed
    obtain ⟨notOpen, closedParts⟩ := forall_mem_nested.mp closed
    obtain ⟨closedReceiver, closedRest⟩ := List.forall_mem_cons.mp closedParts
    obtain ⟨closedParameters, closedResult⟩ := List.forall_mem_append.mp closedRest
    have endsByItself : ∃ alone, receiver.written = .atom alone :=
      exists_atom fun isOpen => notOpen ⟨rfl, isOpen⟩
    obtain ⟨alone, isAlone⟩ := endsByItself
    have useOfReceiver := ofReceiver closedReceiver
    rw [isAlone, WrittenType.toUse] at useOfReceiver
    rw [written_extension, isAlone, WrittenType.extend, WrittenType.toUse_enclosed nullable rfl,
      WrittenType.toUse, useOfReceiver, uses ofParameters closedParameters,
      ofResult (closedResult result (by simp)), withoutFunctionNames,
      withoutFunctionNamesOfList_eq_map, List.map_cons, List.map_append, List.map_singleton]

/-- Two legible types are shown as the same text exactly if the text is read as one type. If all
receivers stand in parentheses where they have to, that is if they are the same type up to the names
of function types. -/
theorem rendered_eq_iff {left right : TypeUse}
    (legible : ∀ use ∈ left.nested ++ right.nested, use.IsLegible)
    (scope scope' : Content.Scope) (session session' : Session) :
    (left.rendered scope session = right.rendered scope' session' ↔
      left.written = right.written) ∧
    ((∀ use ∈ left.nested ++ right.nested, ¬use.HasOpenReceiver) →
      (left.rendered scope session = right.rendered scope' session' ↔
        left.withoutFunctionNames = right.withoutFunctionNames)) := by
  obtain ⟨legibleLeft, legibleRight⟩ := List.forall_mem_append.mp legible
  have sameReading : left.rendered scope session = right.rendered scope' session' ↔
      left.written = right.written := by
    rw [← String.toList_inj, toList_rendered, toList_rendered, textOf_ofType left legibleLeft,
      textOf_ofType right legibleRight]
    exact WrittenType.text_injective.eq_iff
  refine ⟨sameReading, fun closed => ?_⟩
  obtain ⟨closedLeft, closedRight⟩ := List.forall_mem_append.mp closed
  rw [sameReading]
  constructor
  · intro same
    rw [← toUse_written left legibleLeft closedLeft, same,
      toUse_written right legibleRight closedRight]
  · intro same
    rw [← written_withoutFunctionNames left, same, written_withoutFunctionNames right]

/-- The function type from `A` to `B` as the receiver of a function type from `C` to `D`. -/
def functionReceiver (nullable : Bool) : TypeUse where
  path := ["Function"]
  arguments :=
    [{ path := ["Function"], arguments := [{ path := ["A"] }, { path := ["B"] }], nullable
       function := some {} },
      { path := ["C"] }, { path := ["D"] }]
  function := some { hasReceiver := true }

/-- The function type from `A` to a function type with the receiver `B` from `C` to `D`. -/
def functionResult : TypeUse where
  path := ["Function"]
  arguments :=
    [{ path := ["A"] },
      { path := ["Function"], arguments := [{ path := ["B"] }, { path := ["C"] }, { path := ["D"] }]
        function := some { hasReceiver := true } }]
  function := some {}

/-- A nullable function type in the place of a receiver stands in parentheses, so its text tells
it. -/
theorem rendered_functionReceiver_nullable :
    (∀ use ∈ (functionReceiver true).nested ++ functionResult.nested, use.IsLegible) ∧
    (∀ use ∈ (functionReceiver true).nested ++ functionResult.nested, ¬use.HasOpenReceiver) ∧
    ((functionReceiver true).rendered {} {} = functionResult.rendered {} {} ↔
      (functionReceiver true).written = functionResult.written) ∧
    ((functionReceiver true).rendered {} {} = functionResult.rendered {} {} ↔
      (functionReceiver true).withoutFunctionNames = functionResult.withoutFunctionNames) := by
  have legible : ∀ use ∈ (functionReceiver true).nested ++ functionResult.nested,
      use.IsLegible := by
    decide +kernel
  have closed : ∀ use ∈ (functionReceiver true).nested ++ functionResult.nested,
      ¬use.HasOpenReceiver := by
    decide +kernel
  obtain ⟨sameReading, sameType⟩ := rendered_eq_iff legible {} {} {} {}
  exact ⟨legible, closed, sameReading, sameType closed⟩

/-- Without parentheses around it, a function type in the place of a receiver is not read as one:
two different types with plain names are shown as `(A) -> B.(C) -> D`. -/
theorem exists_rendered_eq :
    ∃ left right : TypeUse,
      (∀ use ∈ left.nested ++ right.nested,
        use.IsLegible ∧ use.dri = none ∧ use.path ≠ [] ∧
          ∀ segment ∈ use.path, segment ≠ "" ∧ segment.toList.all Char.isAlpha) ∧
      (∀ scope session, left.rendered scope session = right.rendered scope session) ∧
      left.withoutFunctionNames ≠ right.withoutFunctionNames := by
  refine ⟨functionReceiver false, functionResult, by decide +kernel, fun scope session => ?_,
    by decide +kernel⟩
  rw [← String.toList_inj, toList_rendered, toList_rendered]
  decide +kernel

end TypeUse

end DocPages
