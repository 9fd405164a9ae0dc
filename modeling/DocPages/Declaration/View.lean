import DocPages.Declaration.Equality

/-!
# What declarations share

Functions that read the parts which declarations of every kind have. A module stands at the root,
its source sets are those it registers, and it carries no extra properties.
-/

namespace DocPages

namespace Declaration

/-- The common part, which a module lacks. -/
def common? : Declaration → Option Common
  | .module _ => none
  | .package decl => some decl.common
  | .classlike decl => some decl.common
  | .typeAlias decl => some decl.common
  | .function decl => some decl.common
  | .property decl => some decl.common
  | .enumEntry decl => some decl.common

/-- The declaration with its common part changed; a module stays as it is. -/
def mapCommon (change : Common → Common) : Declaration → Declaration
  | .module decl => .module decl
  | .package decl => .package { decl with common := change decl.common }
  | .classlike decl => .classlike { decl with common := change decl.common }
  | .typeAlias decl => .typeAlias { decl with common := change decl.common }
  | .function decl => .function { decl with common := change decl.common }
  | .property decl => .property { decl with common := change decl.common }
  | .enumEntry decl => .enumEntry { decl with common := change decl.common }

/-- The identity. -/
def dri (declaration : Declaration) : Dri :=
  (declaration.common?.map Common.dri).getD .root

/-- The declared name. -/
def name? : Declaration → Option String
  | .module decl => some decl.name
  | declaration => declaration.common?.bind Common.name

/-- The source sets that declare it. -/
def sourceSets : Declaration → SourceSets
  | .module decl => .ofList (decl.sourceSets.map SourceSet.id)
  | declaration => (declaration.common?.map Common.sourceSets).getD {}

/-- The documentation by source set. -/
def documentation : Declaration → Dependent Comment
  | .module decl => decl.documentation
  | declaration => (declaration.common?.map Common.documentation).getD {}

/-- The extra properties, which a module lacks. -/
def extras (declaration : Declaration) : Extras Declaration :=
  (declaration.common?.map Common.extras).getD .empty

/-- The declaration with a name that tells it apart from those with a clashing identity. -/
def withClashAwareName (name : String) (declaration : Declaration) : Declaration :=
  declaration.mapCommon fun common =>
    { common with extras := { common.extras with clashAwareName := some name } }

/-- The receiver of an extension. -/
def receiver? : Declaration → Option Parameter
  | .function decl => decl.receiver
  | .property decl => decl.receiver
  | _ => none

/-- A function or property with a receiver. -/
def isExtension (declaration : Declaration) : Bool :=
  declaration.receiver?.isSome

def isClasslike : Declaration → Bool
  | .classlike _ => true
  | _ => false

def isTypeAlias : Declaration → Bool
  | .typeAlias _ => true
  | _ => false

def isFunction : Declaration → Bool
  | .function _ => true
  | _ => false

def isProperty : Declaration → Bool
  | .property _ => true
  | _ => false

/-- The class-like declaration, if it is one. -/
def classlike? : Declaration → Option ClasslikeDecl
  | .classlike decl => some decl
  | _ => none

/-- A member that every declaring source set, of which there is one, inherits from a supertype. -/
def isInherited (declaration : Declaration) : Bool :=
  match declaration.extras.inheritedMember with
  | none => false
  | some inherited =>
    !declaration.sourceSets.isEmpty &&
      declaration.sourceSets.toList.all fun id =>
        match inherited.get? id with
        | some (some _) => true
        | _ => false

/-- The name shown on pages: the one that resolves clashes, if given, or else the declared one. -/
def nameAfterClash (declaration : Declaration) : String :=
  (declaration.extras.clashAwareName.or declaration.name?).getD ""

/-- The class chain, or the name without one, after the package, each unless blank. -/
def qualifiedName? (declaration : Declaration) : Option String := do
  let dri := declaration.dri
  let own ← (dri.classNames.filter (!Text.isAllBlank ·)).or declaration.name?
  match dri.packageName.filter (!Text.isAllBlank ·) with
  | some packageName => some (packageName ++ "." ++ own)
  | none => some own

/-- The kind of the declaration in words. -/
def kindName : Declaration → String
  | .module _ => "module"
  | .package _ => "package"
  | .classlike _ => "classlike"
  | .typeAlias _ => "type alias"
  | .function _ => "function"
  | .property _ => "property"
  | .enumEntry _ => "enum entry"

/-- The identities in a list of declarations. -/
def drisOf (declarations : List Declaration) : OrderedSet Dri :=
  .ofList (declarations.map dri)

/-- The source sets of all declarations in a list. -/
def sourceSetsOf (declarations : List Declaration) : SourceSets :=
  .ofList (declarations.flatMap fun declaration => declaration.sourceSets.toList)

end Declaration

/-- The source sets that a module registers. -/
def ModuleDecl.sourceSetIds (decl : ModuleDecl) : SourceSets :=
  .ofList (decl.sourceSets.map SourceSet.id)

end DocPages
