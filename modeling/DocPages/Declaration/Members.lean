import DocPages.Declaration.View

/-!
# Members

The declarations that packages, classes and enum entries hold, and how deep types are nested in
them.
-/

namespace DocPages

namespace Declaration

/-- An entry of an enum class. -/
def isEnumEntry : Declaration → Bool
  | .enumEntry _ => true
  | _ => false

/-- The types that a declaration holds. -/
def memberTypes : Declaration → List Declaration
  | .package decl => decl.classlikes.map .classlike ++ decl.typeAliases.map .typeAlias
  | .classlike decl => decl.classlikes.map .classlike
  | .enumEntry decl => decl.classlikes.map .classlike
  | _ => []

/-- The functions that a declaration holds. -/
def memberFunctions : Declaration → List Declaration
  | .package decl => decl.functions.map .function
  | .classlike decl => decl.functions.map .function
  | .enumEntry decl => decl.functions.map .function
  | _ => []

/-- The properties that a declaration holds. -/
def memberProperties : Declaration → List Declaration
  | .package decl => decl.properties.map .property
  | .classlike decl => decl.properties.map .property
  | .enumEntry decl => decl.properties.map .property
  | _ => []

/-- The entries of an enum class. -/
def enumEntries : Declaration → List Declaration
  | .classlike decl => decl.entries.map .enumEntry
  | _ => []

/-- The entries that the page of an enum class lists. -/
def listedEntries : Declaration → List Declaration
  | .classlike decl => if decl.kind == .enumKind then decl.entries.map .enumEntry else []
  | _ => []

end Declaration

/-- The declarations that a scope holds. -/
structure Members where
  types : List Declaration := []
  functions : List Declaration := []
  properties : List Declaration := []

namespace Members

/-- The members of all declarations in a list. -/
def ofDeclarations (declarations : List Declaration) : Members where
  types := declarations.flatMap Declaration.memberTypes
  functions := declarations.flatMap Declaration.memberFunctions
  properties := declarations.flatMap Declaration.memberProperties

end Members

namespace Declaration

/-- The constructors of the classes in a list. Annotation classes have none worth showing, and one
of them in the list hides the constructors of the others. -/
def shownConstructors (declarations : List Declaration) : List Declaration :=
  let classlikes := declarations.filterMap classlike?
  if classlikes.any (·.kind == .annotationKind) then []
  else classlikes.flatMap fun decl => decl.constructors.map .function

mutual

/-- How deep types are nested in a class, itself included. -/
def nestingOfClasslike : ClasslikeDecl → Nat
  | ⟨_, _, _, _, _, _, classlikes, entries, _, _⟩ =>
    max (nestingOfClasslikes classlikes) (nestingOfEntries entries) + 1

/-- How deep types are nested in an enum entry, itself included. -/
def nestingOfEntry : EnumEntryDecl → Nat
  | ⟨_, _, _, classlikes⟩ => nestingOfClasslikes classlikes + 1

/-- The deepest nesting in a list of classes. -/
def nestingOfClasslikes : List ClasslikeDecl → Nat
  | [] => 0
  | head :: tail => max (nestingOfClasslike head) (nestingOfClasslikes tail)

/-- The deepest nesting in a list of enum entries. -/
def nestingOfEntries : List EnumEntryDecl → Nat
  | [] => 0
  | head :: tail => max (nestingOfEntry head) (nestingOfEntries tail)

end

/-- How deep types are nested in a declaration, a class or enum entry itself included. -/
def nesting : Declaration → Nat
  | .package decl => nestingOfClasslikes decl.classlikes
  | .classlike decl => nestingOfClasslike decl
  | .enumEntry decl => nestingOfEntry decl
  | _ => 0

/-- The deepest nesting in a list of declarations. -/
def deepestNesting (declarations : List Declaration) : Nat :=
  declarations.foldr (fun declaration deepest => max declaration.nesting deepest) 0

end Declaration

end DocPages
