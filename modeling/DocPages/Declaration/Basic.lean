import DocPages.Comment.Tag
import DocPages.Declaration.Extras
import DocPages.Declaration.TypeUse

/-!
# Declarations

The declarations of a module that was merged from several source sets. Whatever differs between
source sets is a map from source sets to values. The extensions of a class are listed among the
extra properties of its declaration, and any declaration may stand in that list.
-/

namespace DocPages

/-- A parameter or receiver of a function or property. -/
structure Parameter where
  dri : Dri
  /-- The name, which a receiver lacks. -/
  name : Option String := none
  type : TypeUse
deriving DecidableEq, Inhabited

mutual

/-- What every declaration below the module has. -/
structure Common where
  dri : Dri
  name : Option String := none
  /-- The source sets that declare it. -/
  sourceSets : SourceSets := {}
  documentation : Dependent Comment := {}
  extras : Extras Declaration := .empty

structure FunctionDecl where
  common : Common
  isConstructor : Bool := false
  parameters : List Parameter := []
  receiver : Option Parameter := none
  returnType : Option TypeUse := none
  visibility : Dependent Visibility := {}

structure PropertyDecl where
  common : Common
  receiver : Option Parameter := none
  type : TypeUse
  isVar : Bool := false
  visibility : Dependent Visibility := {}

structure TypeAliasDecl where
  common : Common
  underlyingType : Dependent TypeUse := {}
  visibility : Dependent Visibility := {}

/-- An entry of an enum class, which may have members of its own. -/
structure EnumEntryDecl where
  common : Common
  functions : List FunctionDecl := []
  properties : List PropertyDecl := []
  classlikes : List ClasslikeDecl := []

/-- A class, interface, object, enum class or annotation class. -/
structure ClasslikeDecl where
  common : Common
  kind : ClasslikeKind := .classKind
  visibility : Dependent Visibility := {}
  constructors : List FunctionDecl := []
  functions : List FunctionDecl := []
  properties : List PropertyDecl := []
  classlikes : List ClasslikeDecl := []
  /-- The entries of an enum class in order of declaration. -/
  entries : List EnumEntryDecl := []
  supertypes : List TypeUse := []
  /-- The source set of the declaration that others implement, if there is one. -/
  expectPresentIn : Option SourceSetId := none

structure PackageDecl where
  common : Common
  classlikes : List ClasslikeDecl := []
  typeAliases : List TypeAliasDecl := []
  functions : List FunctionDecl := []
  properties : List PropertyDecl := []

structure ModuleDecl where
  name : String
  packages : List PackageDecl := []
  sourceSets : List SourceSet := []
  documentation : Dependent Comment := {}

/-- A declaration of any kind. -/
inductive Declaration where
  | module (decl : ModuleDecl)
  | package (decl : PackageDecl)
  | classlike (decl : ClasslikeDecl)
  | typeAlias (decl : TypeAliasDecl)
  | function (decl : FunctionDecl)
  | property (decl : PropertyDecl)
  | enumEntry (decl : EnumEntryDecl)

end

instance : Inhabited Common := ⟨{ dri := {} }⟩

instance : Inhabited Declaration := ⟨.module { name := "" }⟩

end DocPages
