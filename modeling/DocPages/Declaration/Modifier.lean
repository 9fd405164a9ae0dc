/-!
# Modifiers and kinds of declarations

The visibility of a declaration, its further modifiers, and the kinds of class-like declarations,
with the keywords that they are written with.
-/

namespace DocPages

/-- The visibility of a declaration. -/
inductive Visibility where
  | publicly
  | protectedly
  | internally
  | privately
deriving DecidableEq, Repr

namespace Visibility

/-- A declaration without a stated visibility is public. -/
instance : Inhabited Visibility := ⟨.publicly⟩

/-- The keyword of a visibility. -/
def keyword : Visibility → String
  | .publicly => "public"
  | .protectedly => "protected"
  | .internally => "internal"
  | .privately => "private"

def all : List Visibility := [.publicly, .protectedly, .internally, .privately]

end Visibility

/-- The kind of a class-like declaration. -/
inductive ClasslikeKind where
  | classKind
  | interfaceKind
  | objectKind
  | enumKind
  | annotationKind
deriving DecidableEq, Repr

namespace ClasslikeKind

/-- A class-like declaration without a stated kind is a class. -/
instance : Inhabited ClasslikeKind := ⟨.classKind⟩

/-- The written name of a kind. -/
def key : ClasslikeKind → String
  | .classKind => "class"
  | .interfaceKind => "interface"
  | .objectKind => "object"
  | .enumKind => "enum"
  | .annotationKind => "annotation"

/-- The keywords that introduce a declaration of a kind. -/
def keyword : ClasslikeKind → String
  | .classKind => "class"
  | .interfaceKind => "interface"
  | .objectKind => "object"
  | .enumKind => "enum class"
  | .annotationKind => "annotation class"

def all : List ClasslikeKind :=
  [.classKind, .interfaceKind, .objectKind, .enumKind, .annotationKind]

end ClasslikeKind

/-- A modifier beyond the visibility. -/
inductive Modifier where
  | abstractMember
  | openMember
  | sealedClass
  | dataClass
  | valueClass
  | inlineFunction
  | suspendFunction
  | operatorFunction
  | infixFunction
  | overrideMember
  | externalMember
  | constProperty
  | lateinitProperty
deriving DecidableEq, Repr, Inhabited

namespace Modifier

/-- Modifiers are ordered as they are written. -/
instance : Ord Modifier where
  compare left right := compareOn Modifier.ctorIdx left right

instance : Std.TransOrd Modifier :=
  inferInstanceAs (Std.TransCmp (compareOn Modifier.ctorIdx))

/-- The keyword of a modifier. -/
def keyword : Modifier → String
  | .abstractMember => "abstract"
  | .openMember => "open"
  | .sealedClass => "sealed"
  | .dataClass => "data"
  | .valueClass => "value"
  | .inlineFunction => "inline"
  | .suspendFunction => "suspend"
  | .operatorFunction => "operator"
  | .infixFunction => "infix"
  | .overrideMember => "override"
  | .externalMember => "external"
  | .constProperty => "const"
  | .lateinitProperty => "lateinit"

/-- Every modifier, in the order in which they are written. -/
def all : List Modifier :=
  [.abstractMember, .openMember, .sealedClass, .dataClass, .valueClass, .inlineFunction,
    .suspendFunction, .operatorFunction, .infixFunction, .overrideMember, .externalMember,
    .constProperty, .lateinitProperty]

end Modifier

end DocPages
