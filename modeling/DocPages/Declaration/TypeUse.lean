import DocPages.Declaration.Identity
import DocPages.Text.Splitting

/-!
# Uses of types

A type as it is used in a declaration: its name, its arguments, and the declaration it resolves to,
if that is known. The last argument of a function type is its return type, and the first one is its
receiver if it has a receiver.
-/

namespace DocPages

/-- What makes a type a function type. -/
structure FunctionForm where
  /-- The first argument is the receiver. -/
  hasReceiver : Bool := false
deriving DecidableEq, Repr, Inhabited

/-- A use of a type. -/
structure TypeUse where
  /-- The declaration of the type, if it is known. -/
  dri : Option Dri := none
  /-- The segments of the qualified name. -/
  path : List String := []
  arguments : List TypeUse := []
  nullable : Bool := false
  /-- The form of a function type. -/
  function : Option FunctionForm := none
deriving Inhabited

namespace TypeUse

mutual

/-- Equality of uses of types. -/
def beq : TypeUse → TypeUse → Bool
  | ⟨dri, path, arguments, nullable, function⟩, ⟨dri', path', arguments', nullable', function'⟩ =>
    dri == dri' && path == path' && beqList arguments arguments' && nullable == nullable' &&
      function == function'

/-- Equality of lists of uses of types. -/
def beqList : List TypeUse → List TypeUse → Bool
  | [], [] => true
  | head :: tail, head' :: tail' => beq head head' && beqList tail tail'
  | _, _ => false

end

mutual

theorem beq_iff : (left right : TypeUse) → (beq left right = true ↔ left = right)
  | ⟨_, _, arguments, _, _⟩, ⟨_, _, _, _, _⟩ => by
    simp [beq, beqList_iff arguments, and_assoc]

theorem beqList_iff : (left right : List TypeUse) → (beqList left right = true ↔ left = right)
  | [], right => by cases right <;> simp [beqList]
  | head :: tail, right => by
    cases right <;> simp [beqList, beq_iff head, beqList_iff tail]

end

instance : DecidableEq TypeUse := fun left right =>
  decidable_of_decidable_of_iff (beq_iff left right)

/-- A type whose declaration is not known. -/
def unresolved (qualifiedName : String) : TypeUse :=
  { path := Text.split '.' qualifiedName }

/-- A type with a known declaration. -/
def resolved (dri : Dri) (qualifiedName : String) : TypeUse :=
  { dri := some dri, path := Text.split '.' qualifiedName }

/-- The type of functions without a result. -/
def unit : TypeUse :=
  resolved (.ofClass "kotlin" "Unit") "kotlin.Unit"

/-- The type of functions from the parameters to the result. -/
def functionType (parameters : List TypeUse) (result : TypeUse) : TypeUse :=
  let name := "Function" ++ toString parameters.length
  { dri := some (.ofClass "kotlin" name)
    path := ["kotlin", name]
    arguments := parameters ++ [result]
    function := some {} }

/-- The last segment of the name. -/
def simpleName? (type : TypeUse) : Option String :=
  type.path.getLast?

/-- The segments of the name joined with dots. -/
def qualifiedName (type : TypeUse) : String :=
  String.intercalate "." type.path

/-- A function type with at least a return type. -/
def isFunctionType (type : TypeUse) : Bool :=
  type.function.isSome && !type.arguments.isEmpty

/-- The type of functions without a result, which signatures leave out. -/
def isUnit (type : TypeUse) : Bool :=
  !type.nullable && (type.qualifiedName == "kotlin.Unit" || type.qualifiedName == "void")

mutual

/-- The written form: the qualified name, the arguments in angle brackets, and a question mark
after a nullable type. -/
def display : TypeUse → String
  | ⟨_, path, arguments, nullable, _⟩ =>
    String.intercalate "." path ++
      (if arguments.isEmpty then ""
        else "<" ++ String.intercalate ", " (displayList arguments) ++ ">") ++
      (if nullable then "?" else "")

/-- The written forms of a list of types. -/
def displayList : List TypeUse → List String
  | [] => []
  | head :: tail => head.display :: displayList tail

end

end TypeUse

end DocPages
