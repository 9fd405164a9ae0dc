import DocPages.Declaration.View
import DocPages.Signature.Type

/-!
# Signatures of declarations

The signature of a declaration is a group of symbols for each of its source sets, so that the
visibility and the modifiers of each platform are kept. Modules and packages have no signature.
-/

namespace DocPages

namespace Signature

open Content

/-- The applied annotations, each a link with the simple name of its class. -/
def annotationPieces (extras : Extras Declaration) : List Piece :=
  (extras.annotations.getD []).flatMap fun use =>
    let name := ((Text.split '.' (use.dri.classNames.getD "")).getLast?).getD ""
    [.link .annotations ("@" ++ name) use.dri, .symbol " "]

/-- The visibility and the further modifiers in a source set. -/
def modifierPieces (visibility : Dependent Visibility) (extras : Extras Declaration)
    (id : SourceSetId) : List Piece :=
  let modifiers := (extras.additionalModifiers.bind (·.get? id)).getD {}
  [.symbol (((visibility.get? id).getD default).keyword ++ " ")] ++
    modifiers.toList.map fun modifier => .symbol (modifier.keyword ++ " ")

/-- The name of a declaration as a link to it. -/
def nameLink (common : Common) : Piece :=
  .link .main (common.name.getD "") common.dri

/-- The receiver of an extension with the dot after it. -/
def receiverPieces (receiver : Option Parameter) : List Piece :=
  match receiver with
  | some parameter => ofType parameter.type ++ [.symbol "."]
  | none => []

/-- A class-like declaration in a source set. -/
def classlikePieces (decl : ClasslikeDecl) (id : SourceSetId) : List Piece :=
  modifierPieces decl.visibility decl.common.extras id ++
    [.symbol (decl.kind.keyword ++ " "), nameLink decl.common] ++
    (if decl.supertypes.isEmpty then []
      else [.symbol " : "] ++ commaSeparated (decl.supertypes.map ofType))

/-- A parameter with its type. -/
def parameterPieces (parameter : Parameter) : List Piece :=
  .text .parameters (parameter.name.getD "" ++ ": ") :: ofType parameter.type

/-- The return type of a function, unless it is a constructor or has no result. -/
def returnPieces (decl : FunctionDecl) : List Piece :=
  match decl.returnType with
  | some type =>
    if !decl.isConstructor && !type.isUnit then [.symbol ": "] ++ ofType type else []
  | none => []

/-- A function or constructor in a source set. -/
def functionDeclPieces (decl : FunctionDecl) (id : SourceSetId) : List Piece :=
  modifierPieces decl.visibility decl.common.extras id ++
    (if decl.isConstructor then [.link .main "constructor" decl.common.dri]
      else [.symbol "fun "] ++ receiverPieces decl.receiver ++ [nameLink decl.common]) ++
    [.symbol "("] ++ commaSeparated (decl.parameters.map parameterPieces) ++ [.symbol ")"] ++
    returnPieces decl

/-- A property in a source set. -/
def propertyPieces (decl : PropertyDecl) (id : SourceSetId) : List Piece :=
  modifierPieces decl.visibility decl.common.extras id ++
    [.symbol (if decl.isVar then "var " else "val ")] ++ receiverPieces decl.receiver ++
    [nameLink decl.common, .symbol ": "] ++ ofType decl.type

/-- A type alias in a source set, with its underlying type if the source set has one. -/
def typeAliasPieces (decl : TypeAliasDecl) (id : SourceSetId) : List Piece :=
  modifierPieces decl.visibility decl.common.extras id ++
    [.symbol "typealias ", nameLink decl.common] ++
    (match decl.underlyingType.get? id with
      | some type => [.symbol " = "] ++ ofType type
      | none => [])

/-- A declaration in a source set, after its annotations. -/
def declarationPieces (declaration : Declaration) (id : SourceSetId) : List Piece :=
  annotationPieces declaration.extras ++
    match declaration with
    | .module _ | .package _ => []
    | .classlike decl => classlikePieces decl id
    | .typeAlias decl => typeAliasPieces decl id
    | .function decl => functionDeclPieces decl id
    | .property decl => propertyPieces decl id
    | .enumEntry decl => [nameLink decl.common]

/-- The source sets that a signature is written for. -/
def writtenSourceSets : Declaration → List SourceSetId
  | .module _ | .package _ => []
  | declaration => declaration.sourceSets.toList

/-- The group of a declaration in a source set. -/
def sourceSetNode (declaration : Declaration) (id : SourceSetId) : Node :=
  let scope : Scope :=
    { dris := .singleton declaration.dri, kind := .symbol, sourceSets := .singleton id
      styles := .singleton .monospace }
  .group scope ((declarationPieces declaration id).map (Piece.toNode scope))

/-- The signature of a declaration. -/
def nodesOf (declaration : Declaration) : List Node :=
  (writtenSourceSets declaration).map (sourceSetNode declaration)

/-- The problems of the signature of a declaration. -/
def problemsOf (declaration : Declaration) : List Problem :=
  (writtenSourceSets declaration).flatMap fun id => problems (declarationPieces declaration id)

end Signature

end DocPages
