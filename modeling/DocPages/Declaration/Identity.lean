/-!
# Declaration identities

A declaration reference identifier (DRI) names one logical declaration across all source sets that
it appears in: its package, the chain of its enclosing classes, the callable with its parameter
types, and an extra mark where these do not suffice.

Identities are ordered by these parts, an absent part first. A callable is ordered by its name and
by the written form of its types, so two different callables can compare as equal.
-/

namespace DocPages

/-- A type in the written signature of a callable. -/
inductive SignatureType where
  /-- A named type with its arguments. -/
  | constructor (fullName : String) (params : List SignatureType)
  /-- A type parameter. -/
  | param (name : String)
  /-- A type that admits the null value. -/
  | nullable (wrapped : SignatureType)
  /-- A star projection. -/
  | star

namespace SignatureType

mutual

def beq : SignatureType → SignatureType → Bool
  | .constructor name params, .constructor name' params' => name == name' && beqList params params'
  | .param name, .param name' => name == name'
  | .nullable wrapped, .nullable wrapped' => beq wrapped wrapped'
  | .star, .star => true
  | _, _ => false

/-- Equality of lists of types. -/
def beqList : List SignatureType → List SignatureType → Bool
  | [], [] => true
  | head :: tail, head' :: tail' => beq head head' && beqList tail tail'
  | _, _ => false

end

mutual

theorem beq_iff : (left right : SignatureType) → (beq left right = true ↔ left = right)
  | .constructor _ params, right => by cases right <;> simp [beq, beqList_iff params]
  | .nullable wrapped, right => by cases right <;> simp [beq, beq_iff wrapped]
  | .param _, right | .star, right => by cases right <;> simp [beq]

theorem beqList_iff : (left right : List SignatureType) → (beqList left right = true ↔ left = right)
  | [], right => by cases right <;> simp [beqList]
  | head :: tail, right => by
    cases right <;> simp [beqList, beq_iff head, beqList_iff tail]

end

instance : DecidableEq SignatureType := fun left right =>
  decidable_of_decidable_of_iff (beq_iff left right)

instance : Inhabited SignatureType := ⟨.star⟩

mutual

/-- The written form of a type: arguments in square brackets, a question mark after a nullable
type, and an asterisk for a star projection. -/
def display : SignatureType → String
  | .constructor fullName [] => fullName
  | .constructor fullName (first :: rest) =>
    fullName ++ "[" ++ String.intercalate "," (displayList (first :: rest)) ++ "]"
  | .param name => name
  | .nullable wrapped => wrapped.display ++ "?"
  | .star => "*"

/-- The written forms of a list of types. -/
def displayList : List SignatureType → List String
  | [] => []
  | head :: tail => head.display :: displayList tail

end

/-- A named type without arguments. -/
def named (fullName : String) : SignatureType := .constructor fullName []

end SignatureType

/-- The callable part of an identity. -/
structure CallableId where
  name : String
  /-- The type that an extension extends. -/
  receiver : Option SignatureType := none
  /-- The types of the parameters. -/
  params : List SignatureType := []
deriving DecidableEq, Inhabited

namespace CallableId

/-- The receiver, a number sign, and the parameter types separated by number signs. -/
def signature (callable : CallableId) : String :=
  ((callable.receiver.map SignatureType.display).getD "") ++ "#" ++
    String.intercalate "#" (SignatureType.displayList callable.params)

/-- The name and the signature. -/
def display (callable : CallableId) : String :=
  callable.name ++ "#" ++ callable.signature

/-- Callables are ordered by name, then by signature. -/
instance : Ord CallableId where
  compare left right := compareLex (compareOn name) (compareOn signature) left right

instance : Std.TransOrd CallableId :=
  inferInstanceAs (Std.TransCmp (compareLex (compareOn name) (compareOn signature)))

end CallableId

/-- The identity of one logical declaration. -/
structure Dri where
  /-- The full name of the package. -/
  packageName : Option String := none
  /-- The names of the enclosing classes and of the class itself, joined with dots. -/
  classNames : Option String := none
  callable : Option CallableId := none
  /-- The mark that tells declarations apart whose other parts agree. -/
  extra : Option String := none
deriving DecidableEq, Inhabited

namespace Dri

/-- Identities are ordered part by part, an absent part first. -/
instance : Ord Dri where
  compare left right :=
    compareLex (compareOn packageName)
      (compareLex (compareOn classNames) (compareLex (compareOn callable) (compareOn extra)))
      left right

instance : Std.TransOrd Dri :=
  inferInstanceAs (Std.TransCmp (compareLex (compareOn packageName)
    (compareLex (compareOn classNames) (compareLex (compareOn callable) (compareOn extra)))))

/-- The identity of a class in a package. -/
def ofClass (packageName classNames : String) : Dri :=
  { packageName := some packageName, classNames := some classNames }

/-- The identity of a package. -/
def ofPackage (packageName : String) : Dri :=
  { packageName := some packageName }

/-- The identity of the module root. -/
def root : Dri := {}

/-- The identity of the page that lists all types. -/
def allTypes : Dri := ofPackage ".alltypes"

/-- The identity with another class chain. -/
def withClassNames (dri : Dri) (classNames : String) : Dri :=
  { dri with classNames := some classNames }

/-- The identity with another callable. -/
def withCallable (dri : Dri) (callable : CallableId) : Dri :=
  { dri with callable := some callable }

/-- The identity with another extra mark. -/
def withExtra (dri : Dri) (extra : String) : Dri :=
  { dri with extra := some extra }

/-- The identity without its extra mark. -/
def withoutExtra (dri : Dri) : Dri :=
  { dri with extra := none }

/-- The identity of a class nested in the class. -/
def nested (dri : Dri) (className : String) : Dri :=
  let outer := dri.classNames.getD ""
  { packageName := dri.packageName
    classNames := some (if outer.isEmpty then className else outer ++ "." ++ className) }

/-- The parts separated by slashes, an absent part as nothing. -/
def display (dri : Dri) : String :=
  dri.packageName.getD "" ++ "/" ++ dri.classNames.getD "" ++ "/" ++
    (dri.callable.map CallableId.display).getD "" ++ "/" ++ dri.extra.getD ""

end Dri

end DocPages
