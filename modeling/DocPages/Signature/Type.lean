import DocPages.Signature.Piece

/-!
# Signatures of types

A resolved type is a link with its simple name, any other type a text with its qualified name, and
arguments follow in angle brackets. A function type shows its receiver before a dot, its parameters
in parentheses, and its return type after an arrow. A type without a name and a function type
without a return type are replaced by a placeholder.
-/

namespace DocPages

namespace Signature

/-- The name of a type, which is not a function type. -/
def namePiece (type : TypeUse) : Piece :=
  match type.dri, type.simpleName? with
  | some dri, some name => .link .symbol name dri
  | none, some _ => .symbol type.qualifiedName
  | _, none => .placeholder (.unresolvedType type)

/-- The arguments of a type in angle brackets, if there are any. -/
def argumentPieces (arguments : List (List Piece)) : List Piece :=
  if arguments.isEmpty then []
  else [.symbol "<"] ++ commaSeparated arguments ++ [.symbol ">"]

/-- The parameters of a function type in parentheses, an arrow, and the return type, which is the
last of the given types. -/
def arrowPieces (type : TypeUse) (arguments : List (List Piece)) : List Piece :=
  match arguments.getLast? with
  | some result =>
    [.symbol "("] ++ commaSeparated arguments.dropLast ++ [.symbol ") -> "] ++ result
  | none => [.placeholder (.missingReturnType type)]

/-- A function type, given the pieces of its arguments, in parentheses if it is nullable. -/
def functionPieces (type : TypeUse) (arguments : List (List Piece)) : List Piece :=
  let inner :=
    match arguments with
    | receiver :: rest =>
      if type.function.any FunctionForm.hasReceiver then
        receiver ++ [.symbol "."] ++ arrowPieces type rest
      else arrowPieces type arguments
    | [] => arrowPieces type []
  if type.nullable then [.symbol "("] ++ inner ++ [.symbol ")?"] else inner

mutual

/-- The pieces of a type. -/
def ofType : TypeUse → List Piece
  | ⟨dri, path, arguments, nullable, function⟩ =>
    let type : TypeUse := ⟨dri, path, arguments, nullable, function⟩
    if type.isFunctionType then
      functionPieces type (ofTypes arguments)
    else
      [namePiece type] ++ argumentPieces (ofTypes arguments) ++
        (if nullable then [.symbol "?"] else [])

/-- The pieces of every type of a list. -/
def ofTypes : List TypeUse → List (List Piece)
  | [] => []
  | head :: tail => ofType head :: ofTypes tail

end

end Signature

end DocPages
