import DocPages.Page.Listing

/-!
# Page contents

What the page of every subject shows. The page of a group of types can fail: the extensions of its
classes must be functions and properties, and their extra properties must not conflict.
-/

namespace DocPages

open Content

/-- What decides what pages show: the arrangement of the pages and the renderers of custom tags. -/
structure PageMaker extends Arrangement where
  renderers : List TagRenderer := [.sinceKotlin]

/-- The best variant among those of which only one can be shown: the only one that differs from the
others, or else the first of the common platform, of the virtual machine, or of all. -/
def Registry.bestVariant? (registry : Registry) (variants : List (SourceSetId × Markup)) :
    Option (SourceSetId × Markup) :=
  let distinct := distinctBy Prod.snd variants
  let isOn := fun (platform : Platform) (variant : SourceSetId × Markup) =>
    registry.platform variant.1 == platform
  if distinct.length ≤ 1 then distinct.head?
  else
    ((distinct.find? (isOn .common)).or (distinct.find? (isOn .jvm))).or distinct.head?

/-- The first custom tag of a name. -/
def Comment.customTag? (name : String) (comment : Comment) : Option Markup :=
  comment.tags.findSome? fun tag =>
    match tag with
    | .custom other root => if other = name then some root else none
    | _ => none

/-- The names of the custom tags of a comment. -/
def Comment.customTagNames (comment : Comment) : List String :=
  comment.tags.filterMap fun tag =>
    match tag with
    | .custom name _ => some name
    | _ => none

/-- The description of a package that all its source sets share. -/
def PackageDecl.sharedDescription? (decl : PackageDecl) : Option Markup :=
  let description? := fun id =>
    (decl.common.documentation.get? id).bind fun comment =>
      comment.descriptionTag?.map CommentTag.root
  match decl.common.sourceSets.toList.map description? with
  | some first :: others => if others.all (· == some first) then some first else none
  | _ => none

/-- What a row says about a declaration. -/
def Declaration.rowSubject (declaration : Declaration) : RowSubject :=
  ⟨declaration.dri, declaration.sourceSets, declaration.name?⟩

/-- The groups of declarations that share a declared name, by the name shown for the first. -/
def Declaration.namedGroups (declarations : List Declaration) : List (String × List Declaration) :=
  (groupByFirstSeen name? declarations).map fun group => (groupName group, group)

namespace PageMaker

variable (maker : PageMaker)

/-- The nodes of the description of a declaration. -/
def description (declaration : Declaration) : Build (List Node) :=
  Section.descriptions maker.renderers declaration
    { dris := .singleton declaration.dri, sourceSets := declaration.sourceSets }

/-- A description below a cover, or nothing if it is empty. -/
def underCover (overrides : Overrides) (made : List Node) : Fragment Build :=
  .onlyIf (!made.isEmpty) <|
    .platformHinted { overrides with styles := some (.singleton .underCoverText) } (.nodes made)

/-- The row of a package on the page of its module. -/
def packageRow (decl : PackageDecl) : Fragment Build :=
  .link (decl.common.name.getD "") decl.common.dri .main ++
    .forSome decl.sharedDescription? (Section.briefComment decl.common.sourceSets)

/-- The content of the page of a module: its description and its packages. -/
def moduleContent (decl : ModuleDecl) : Build Node := do
  let description ← maker.description (.module { decl with packages := [] })
  makeContent (.singleton .root) decl.sourceSetIds <|
    .group { kind := some .cover } (.cover decl.name ++ underCover {} description) ++
      .block "Packages" 2 .packages decl.packages
        (fun package => ⟨package.common.dri, package.common.sourceSets, package.common.name⟩)
        { sourceSets := decl.sourceSetIds, anchored := true } packageRow ++
      .onlyIf (maker.listsAllTypes decl)
        (.header 2 "Index" .cover ++ .link "All Types" .allTypes .main)

/-- The briefs of a type on the page of all types: that of its description, and those of its custom
tags by name. -/
def bestBrief (type : Declaration) : Fragment Build :=
  let documented := type.documentation.entries
  let descriptions := documented.filterMap fun (id, comment) =>
    comment.descriptionTag?.map fun tag => (id, tag.root)
  let names : OrderedSet String :=
    .ofList (documented.flatMap fun (_, comment) => comment.customTagNames)
  .forSome (maker.registry.bestVariant? descriptions)
      (fun (id, root) => Section.briefComment (.singleton id) root) ++
    .forEach names.toList fun name =>
      let variants := documented.filterMap fun (id, comment) =>
        (comment.customTag? name).map fun root => (id, root)
      .forSome (maker.registry.bestVariant? variants) fun (id, root) =>
        .forEach (maker.renderers.filter (·.applies name)) fun renderer =>
          renderer.brief id name root

/-- The content of the page of all types of a module. -/
def allTypesContent (decl : ModuleDecl) : Build Node :=
  let types := decl.packages.flatMap fun package => (Declaration.package package).memberTypes
  makeContent (.singleton .root) decl.sourceSetIds <|
    .group { kind := some .cover } (.cover decl.name) ++
      .block "All Types" 2 .allTypes (Declaration.standaloneTypes types) Declaration.rowSubject
        { sourceSets := decl.sourceSetIds, anchored := true } fun type =>
          .link (type.qualifiedName?.getD "") type.dri .main ++ maker.bestBrief type

/-- The listings of a scope. -/
def scopeContent (dris : OrderedSet Dri) (sourceSets : SourceSets)
    (extensions : List Declaration) (members : Members) : Build Node :=
  makeContent dris sourceSets <|
    .forEach (members.listings maker.settings dris extensions) (Listing.fragment maker.renderers)

/-- The content of the page of a package: its description and its members. -/
def packageContent (decl : PackageDecl) : Build Node := do
  let dris := .singleton decl.common.dri
  let sourceSets := decl.common.sourceSets
  let scope ← maker.scopeContent dris sourceSets [] (.ofDeclarations [.package decl])
  let description ← maker.description (.package decl)
  makeContent dris sourceSets <|
    .group { kind := some .cover }
        (.cover "Package-level declarations" ++
          underCover { dris := some dris, sourceSets := some sourceSets } description) ++
      .group { styles := some (.singleton .tabbedContent) } (.nodes [scope])

/-- The signatures of the variants of a row with briefs of their descriptions. -/
def variantSummaries (group : List Declaration) : Fragment Build :=
  .platformHinted
    { dris := some (Declaration.drisOf group)
      sourceSets := some (Declaration.sourceSetsOf group)
      styles := some {}, extras := some .empty } <|
    .forEach group fun declaration => .signature declaration ++ Section.brief declaration

/-- The content that lists constructors by name. -/
def constructorsContent (constructors : List Declaration) : Build Node :=
  let sourceSets := Declaration.sourceSetsOf constructors
  makeContent (Declaration.drisOf constructors) sourceSets <|
    .multiBlock "Constructors" 2 .constructors (Declaration.namedGroups constructors)
      Declaration.rowSubject
      { sourceSets, anchored := true, extras := { tab := some .constructor } } fun name group =>
        .forSome group.head? fun first =>
          .linkTo (.declaration first.dri)
              { kind := some .main, styles := some (.singleton .rowTitle) } (.text .main name) ++
            variantSummaries group

/-- The content that lists enum entries by name, in order of declaration. -/
def entriesContent (entries : List Declaration) : Build Node :=
  let sourceSets := Declaration.sourceSetsOf entries
  makeContent (Declaration.drisOf entries) sourceSets <|
    .multiBlock "Entries" 2 .classlikes (Declaration.namedGroups entries) Declaration.rowSubject
      { sourceSets, sorted := false, anchored := true, extras := { tab := some .entry } }
      fun name group =>
        .forSome group.head? fun first =>
          .link name first.dri .main ++ variantSummaries group

/-- The extensions of the classes of a group, each variant once. -/
def extensions (group : List Declaration) : Except ExtraKey (List Declaration) := do
  let merged ← (group.filter Declaration.isClasslike).foldlM
    (fun merged type => merged.merge type.extras) Extras.empty
  return distinctBy Declaration.variantKey (merged.callableExtensions.getD [])

/-- The extensions of the classes of a group, or the failure that they lead to. -/
def checkedExtensions (group : List Declaration) : Except Failure (List Declaration) :=
  match extensions group with
  | .error key => .error (.extrasConflict key)
  | .ok extensions =>
    match Declaration.extensionFailure? extensions with
    | some failure => .error failure
    | none => .ok extensions

/-- A content of declarations, if there are any. -/
def contentOf? (content : List Declaration → Build Node) :
    List Declaration → Build (Option Node)
  | [] => pure none
  | declarations => some <$> content declarations

/-- The content of the page of a group of types with their extensions: their signatures and
descriptions, their constructors and entries, and their members. -/
def typesContent (extensions group : List Declaration) : Build Node := do
  let dris := Declaration.drisOf group
  let sourceSets := Declaration.sourceSetsOf group
  let coverSourceSets := sourceSets.union (Declaration.sourceSetsOf extensions)
  let members := .ofDeclarations (group.filter fun type => type.isClasslike || type.isEnumEntry)
  let scope ← maker.scopeContent dris sourceSets extensions members
  let constructors ← contentOf? constructorsContent (Declaration.shownConstructors group)
  let entries ← contentOf? entriesContent (group.flatMap Declaration.listedEntries)
  let described ← group.mapM fun type => return (type, ← maker.description type)
  makeContent dris sourceSets <|
    .group { kind := some .cover, sourceSets := some coverSourceSets }
        (.cover (Declaration.groupName group) ++
          .platformHinted { dris := some dris, sourceSets := some sourceSets }
            (.forEach described fun (type, description) =>
              .signature type ++ .nodes description)) ++
      .group { styles := some (.singleton .tabbedContent), sourceSets := some coverSourceSets }
        (.nodes (constructors.toList ++ entries.toList ++ [scope]))

/-- The content of the page of a group of functions or properties: the signature and the full
description of every variant. -/
def membersContent (group : List Declaration) : Build Node := do
  let described ← group.mapM fun member => return (member, ← maker.description member)
  makeContent (Declaration.drisOf group) (Declaration.sourceSetsOf group) <|
    .group { kind := some .cover } (.cover (Declaration.groupName group)) ++
      .divergentGroup "member" {} true (described.map fun (member, description) =>
        { dris := .singleton member.dri, sourceSets := member.sourceSets, extras := .empty
          divergent := some ({}, .signature member)
          after := some ({}, .nodes description) })

/-- The content of the page of a subject. -/
def content : Subject → ExceptT Failure Build Node
  | .module decl => maker.moduleContent decl
  | .allTypes decl => maker.allTypesContent decl
  | .package decl => maker.packageContent decl
  | .classlikes group | .enumEntries group => do
    let extensions ← ExceptT.mk (pure (checkedExtensions group))
    maker.typesContent extensions group
  | .members group => maker.membersContent group

end PageMaker

end DocPages
