import DocPages.Declaration.Members
import DocPages.Page.Tree
import DocPages.Problem
import DocPages.Settings.Basic
import DocPages.Siblings.Clash

/-!
# What pages are for

A page is for a module, for all types of a module, for a package, or for a group of types, enum
entries or members that share it. What a page is for determines which pages stand below it.
-/

namespace DocPages

/-- What a page is for. -/
inductive Subject where
  | module (decl : ModuleDecl)
  | allTypes (decl : ModuleDecl)
  | package (decl : PackageDecl)
  | classlikes (group : List Declaration)
  | enumEntries (group : List Declaration)
  | members (group : List Declaration)

namespace Declaration

/-- The name of the page of a group. -/
def groupName (group : List Declaration) : String :=
  (group.head?.map nameAfterClash).getD ""

/-- The identities of the classes in a list that others implement. -/
def expectedDris (types : List Declaration) : OrderedSet Dri :=
  .ofList <| types.filterMap fun type =>
    (type.classlike?.bind ClasslikeDecl.expectPresentIn).map fun _ => type.dri

/-- A type alias that implements one of the listed classes. -/
def isActualAlias (types : List Declaration) (type : Declaration) : Bool :=
  type.isTypeAlias && (expectedDris types).contains type.dri

/-- The types of a list without the type aliases that implement one of them. -/
def standaloneTypes (types : List Declaration) : List Declaration :=
  types.filter fun type => !isActualAlias types type

/-- Groups with a type alias added to the first one that holds a class of its identity, or as a
group of its own. -/
def addAlias (added : Declaration) : List (List Declaration) → List (List Declaration)
  | [] => [[added]]
  | group :: groups =>
    if group.any fun type => type.isClasslike && type.dri == added.dri then
      (group ++ [added]) :: groups
    else group :: addAlias added groups

end Declaration

/-- The name of the page of a module without a name. -/
def unnamedModule : String := "<root>"

namespace Subject

/-- The kind of the page. -/
def kind : Subject → PageKind
  | .module _ => .module
  | .allTypes _ => .allTypes
  | .package _ => .package
  | .classlikes _ | .enumEntries _ => .classlike
  | .members _ => .member

/-- The name of the page. -/
def name : Subject → String
  | .module decl => if decl.name.isEmpty then unnamedModule else decl.name
  | .allTypes _ => "All Types"
  | .package decl => decl.common.name.getD ""
  | .classlikes group | .enumEntries group | .members group => Declaration.groupName group

/-- The declarations that the page is for. A module is kept without its packages. -/
def declarations : Subject → List Declaration
  | .module decl => [.module { decl with packages := [] }]
  | .allTypes _ => []
  | .package decl => [.package decl]
  | .classlikes group | .enumEntries group | .members group => group

/-- The identities that the page is for. -/
def dris : Subject → OrderedSet Dri
  | .module _ => .singleton .root
  | .allTypes _ => .singleton .allTypes
  | .package decl => .singleton decl.common.dri
  | .classlikes group | .enumEntries group | .members group => Declaration.drisOf group

/-- How a group is called in a problem with its identities. -/
def groupLabel? : Subject → Option String
  | .classlikes _ => some "Documentable"
  | .enumEntries _ => some "Enum entry"
  | .members _ => some "Member"
  | _ => none

/-- A group of declarations with several identities. -/
def problems (subject : Subject) : List Problem :=
  match subject.groupLabel? with
  | some label =>
    if 1 < subject.dris.size then
      [.differingDris label ((subject.declarations.head?.map Declaration.dri).getD {})
        subject.dris.size]
    else []
  | none => []

/-- A bound on the depth of the tree of pages below the page. -/
def levels : Subject → Nat
  | .module decl => (decl.packages.foldr (fun package deepest =>
      max (Declaration.package package).nesting deepest) 0) + 2
  | .package decl => (Declaration.package decl).nesting + 1
  | .classlikes group | .enumEntries group => Declaration.deepestNesting group
  | .allTypes _ | .members _ => 0

end Subject

/-- What decides how the declarations of a module are spread over pages. -/
structure Arrangement where
  settings : Settings
  registry : Registry
deriving Inhabited

namespace Arrangement

variable (arrangement : Arrangement)

/-- The groups of siblings that share a page. They are merged by identity, or each has a page of its
own and clashing names are told apart. -/
def groups (siblings : List Declaration) : List (List Declaration) :=
  if arrangement.settings.mergeVariants then Declaration.mergeClashing siblings
  else (Declaration.renameClashing arrangement.registry siblings).map fun sibling => [sibling]

/-- The groups of types that share a page. A type alias that implements a class stands with it. -/
def typeGroups (types : List Declaration) : List (List Declaration) :=
  (types.filter (Declaration.isActualAlias types)).foldl
    (fun groups added => Declaration.addAlias added groups)
    (arrangement.groups (Declaration.standaloneTypes types))

/-- The pages of functions or properties; inherited ones have none. -/
def memberSubjects (members : List Declaration) : List Subject :=
  (arrangement.groups (members.filter fun member => !member.isInherited)).map .members

/-- The pages of the members of a scope: its types, its functions and its properties. -/
def scopeSubjects (members : Members) : List Subject :=
  (arrangement.typeGroups members.types).map .classlikes ++
    arrangement.memberSubjects members.functions ++ arrangement.memberSubjects members.properties

/-- The module has a page that lists its types, of which there are some. -/
def listsAllTypes (decl : ModuleDecl) : Bool :=
  arrangement.settings.listAllTypes &&
    decl.packages.any fun package => !package.classlikes.isEmpty || !package.typeAliases.isEmpty

/-- What the pages directly below the page of a subject are for, in order. -/
def below : Subject → List Subject
  | .module decl =>
    decl.packages.map .package ++
      if arrangement.listsAllTypes decl then [.allTypes decl] else []
  | .package decl => arrangement.scopeSubjects (.ofDeclarations [.package decl])
  | .classlikes group =>
    let classlikes := group.filter Declaration.isClasslike
    (Declaration.shownConstructors group).map (fun constructor => .members [constructor]) ++
      arrangement.scopeSubjects (.ofDeclarations classlikes) ++
      (arrangement.groups (classlikes.flatMap Declaration.enumEntries)).map .enumEntries
  | .enumEntries group =>
    arrangement.scopeSubjects (.ofDeclarations (group.filter Declaration.isEnumEntry))
  | .allTypes _ | .members _ => []

end Arrangement

end DocPages
