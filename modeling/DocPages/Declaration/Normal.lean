import DocPages.Collection.StableSort
import DocPages.Declaration.Equality

/-!
# Declarations up to the order of marks

The marks that tell clashing declarations apart are shown in the order in which they were given, but
two lists of the same marks mean the same. The normal form of a declaration has its marks in
ascending order, also in the extensions listed among the extra properties of a class, and two
declarations agree if their normal forms are equal.
-/

namespace DocPages

namespace Declaration

mutual

/-- The normal form of a common part. -/
def normalCommon : Common → Common
  | ⟨dri, name, sourceSets, documentation, extras⟩ =>
    ⟨dri, name, sourceSets, documentation, normalExtras extras⟩

/-- The normal form of a function. -/
def normalFunction : FunctionDecl → FunctionDecl
  | ⟨common, isConstructor, parameters, receiver, returnType, visibility⟩ =>
    ⟨normalCommon common, isConstructor, parameters, receiver, returnType, visibility⟩

/-- The normal form of a property. -/
def normalProperty : PropertyDecl → PropertyDecl
  | ⟨common, receiver, type, isVar, visibility⟩ =>
    ⟨normalCommon common, receiver, type, isVar, visibility⟩

/-- The normal form of a type alias. -/
def normalTypeAlias : TypeAliasDecl → TypeAliasDecl
  | ⟨common, underlyingType, visibility⟩ => ⟨normalCommon common, underlyingType, visibility⟩

/-- The normal form of an enum entry. -/
def normalEnumEntry : EnumEntryDecl → EnumEntryDecl
  | ⟨common, functions, properties, classlikes⟩ =>
    ⟨normalCommon common, normalFunctions functions, normalProperties properties,
      normalClasslikes classlikes⟩

/-- The normal form of a class-like declaration. -/
def normalClasslike : ClasslikeDecl → ClasslikeDecl
  | ⟨common, kind, visibility, constructors, functions, properties, classlikes, entries,
    supertypes, expectPresentIn⟩ =>
    ⟨normalCommon common, kind, visibility, normalFunctions constructors,
      normalFunctions functions, normalProperties properties, normalClasslikes classlikes,
      normalEnumEntries entries, supertypes, expectPresentIn⟩

/-- The normal form of a package. -/
def normalPackage : PackageDecl → PackageDecl
  | ⟨common, classlikes, typeAliases, functions, properties⟩ =>
    ⟨normalCommon common, normalClasslikes classlikes, normalTypeAliases typeAliases,
      normalFunctions functions, normalProperties properties⟩

/-- The normal form of a module. -/
def normalModule : ModuleDecl → ModuleDecl
  | ⟨name, packages, sourceSets, documentation⟩ =>
    ⟨name, normalPackages packages, sourceSets, documentation⟩

/-- The normal form of extra properties. -/
def normalExtras : Extras Declaration → Extras Declaration
  | ⟨additionalModifiers, annotations, callableExtensions, clashMarkers, clashAwareName,
    inheritedMember, symbolAnchor, tab, volatile⟩ =>
    ⟨additionalModifiers, annotations, normalListing callableExtensions,
      clashMarkers.map (sortBy compare), clashAwareName, inheritedMember, symbolAnchor, tab,
      volatile⟩

/-- The normal form of a list of declarations that may be absent. -/
def normalListing : Option (List Declaration) → Option (List Declaration)
  | some declarations => some (normalDeclarations declarations)
  | none => none

/-- The normal forms of functions. -/
def normalFunctions : List FunctionDecl → List FunctionDecl
  | [] => []
  | head :: tail => normalFunction head :: normalFunctions tail

/-- The normal forms of properties. -/
def normalProperties : List PropertyDecl → List PropertyDecl
  | [] => []
  | head :: tail => normalProperty head :: normalProperties tail

/-- The normal forms of type aliases. -/
def normalTypeAliases : List TypeAliasDecl → List TypeAliasDecl
  | [] => []
  | head :: tail => normalTypeAlias head :: normalTypeAliases tail

/-- The normal forms of enum entries. -/
def normalEnumEntries : List EnumEntryDecl → List EnumEntryDecl
  | [] => []
  | head :: tail => normalEnumEntry head :: normalEnumEntries tail

/-- The normal forms of class-like declarations. -/
def normalClasslikes : List ClasslikeDecl → List ClasslikeDecl
  | [] => []
  | head :: tail => normalClasslike head :: normalClasslikes tail

/-- The normal forms of packages. -/
def normalPackages : List PackageDecl → List PackageDecl
  | [] => []
  | head :: tail => normalPackage head :: normalPackages tail

/-- The normal forms of declarations. -/
def normalDeclarations : List Declaration → List Declaration
  | [] => []
  | head :: tail => normal head :: normalDeclarations tail

/-- The normal form of a declaration. -/
def normal : Declaration → Declaration
  | .module decl => .module (normalModule decl)
  | .package decl => .package (normalPackage decl)
  | .classlike decl => .classlike (normalClasslike decl)
  | .typeAlias decl => .typeAlias (normalTypeAlias decl)
  | .function decl => .function (normalFunction decl)
  | .property decl => .property (normalProperty decl)
  | .enumEntry decl => .enumEntry (normalEnumEntry decl)

end

/-- Two declarations are equal up to the order of marks. -/
def agrees (left right : Declaration) : Bool := left.normal == right.normal

end Declaration

/-- The extra properties with all marks in ascending order. -/
def Extras.normal (extras : Extras Declaration) : Extras Declaration :=
  Declaration.normalExtras extras

/-- Two collections of extra properties are equal up to the order of marks. -/
def Extras.agrees (left right : Extras Declaration) : Bool := left.normal == right.normal

end DocPages
