import DocPages.Signature.Cache

/-!
# Sections of documentation

The description of a declaration on its own page, section by section: deprecation, description,
custom tags, return value, version and author, parameters, references, exceptions and samples. Every
tag is shown for the source set that it comes from. Tables show a brief of the description instead.
-/

namespace DocPages

open Content

/-- How a custom tag is shown. -/
structure TagRenderer where
  /-- The renderer shows the tags of this name. -/
  applies : String → Bool
  /-- The content on the page of the declaration. -/
  description : SourceSetId → String → Markup → Fragment Build
  /-- The content beside the declaration in a table. -/
  brief : SourceSetId → String → Markup → Fragment Build

namespace TagRenderer

/-- The renderer of the tag that names the version of the language. -/
def sinceKotlin : TagRenderer where
  applies name := name == "Since Kotlin"
  description id name root :=
    .group { sourceSets := some (.singleton id), kind := some .comment }
      (.header 4 name .comment ++ .comment root)
  brief id name root :=
    .group
      { sourceSets := some (.singleton id), kind := some .comment
        styles := some (.singleton .underCoverText) }
      (.text .comment (name ++ " ") ++ .comment root)

end TagRenderer

/-- A comment tag with the source set that it comes from. -/
structure SourcedTag where
  id : SourceSetId
  tag : CommentTag
deriving DecidableEq, Inhabited

/-- A row of a table of named tags. -/
structure NamedTag where
  id : SourceSetId
  name : String
  /-- The declaration that the name leads to. -/
  target : Option Dri
  root : Markup
deriving DecidableEq, Inhabited

namespace Declaration

/-- The tags of all source sets, by source set and then in written order. -/
def sourcedTags (declaration : Declaration) : List SourcedTag :=
  declaration.documentation.entries.flatMap fun (id, comment) =>
    comment.tags.map fun tag => { id, tag }

/-- The tag that describes the declaration in a comment. A property that lacks a description is
described by a property tag. -/
def describingTag? (declaration : Declaration) (comment : Comment) : Option CommentTag :=
  comment.descriptionTag?.or <|
    match declaration with
    | .property _ => comment.propertyTag?
    | _ => none

end Declaration

namespace Section

/-- The group of a comment in one source set. -/
def sourcedComment (kind : Option Kind) (id : SourceSetId) (root : Markup) : Fragment Build :=
  .group { sourceSets := some (.singleton id), kind } (.comment root)

/-- The deprecation notes. -/
def deprecation (tags : List SourcedTag) : Fragment Build :=
  .forEach tags fun sourced =>
    match sourced.tag with
    | .deprecated root =>
      .group { sourceSets := some (.singleton sourced.id), kind := some .deprecation }
        (.header 3 sourced.tag.header .deprecation ++ .comment root)
    | _ => .empty

def description (declaration : Declaration) : Fragment Build :=
  .forEach declaration.documentation.entries fun (id, comment) =>
    .forSome (declaration.describingTag? comment) fun tag => sourcedComment none id tag.root

/-- The custom tags, each by the renderers that apply to it. -/
def customTags (shown : TagRenderer → SourceSetId → String → Markup → Fragment Build)
    (renderers : List TagRenderer) (tags : List SourcedTag) : Fragment Build :=
  .forEach tags fun sourced =>
    match sourced.tag with
    | .custom name root =>
      .forEach (renderers.filter (·.applies name)) fun renderer =>
        shown renderer sourced.id name root
    | _ => .empty

/-- A heading and the comments of the tags of one kind, or nothing without such tags. -/
def unnamedTags (selects : CommentTag → Bool) (tags : List SourcedTag) : Fragment Build :=
  match tags.filter (selects ·.tag) with
  | [] => .empty
  | first :: rest =>
    .header 4 first.tag.header .comment ++
      .forEach (first :: rest) fun sourced =>
        sourcedComment (some .comment) sourced.id sourced.tag.root

/-- A return tag. -/
def isReturn : CommentTag → Bool
  | .returns _ => true
  | _ => false

/-- A version tag. -/
def isSince : CommentTag → Bool
  | .since _ => true
  | _ => false

def isAuthor : CommentTag → Bool
  | .author _ => true
  | _ => false

/-- The row of a parameter tag. -/
def parameterRow? (sourced : SourcedTag) : Option NamedTag :=
  match sourced.tag with
  | .param name root => some { id := sourced.id, name, target := none, root }
  | _ => none

/-- The row of a reference tag. -/
def referenceRow? (sourced : SourcedTag) : Option NamedTag :=
  match sourced.tag with
  | .see name address root => some { id := sourced.id, name, target := address, root }
  | _ => none

/-- The row of an exception tag. -/
def exceptionRow? (sourced : SourcedTag) : Option NamedTag :=
  match sourced.tag with
  | .throws name exception root => some { id := sourced.id, name, target := exception, root }
  | _ => none

/-- The name of a row, as a link if it leads to a declaration. -/
def rowTitle (kind : Kind) (row : NamedTag) : Fragment Build :=
  match row.target with
  | some dri =>
    .linkTo (.declaration dri) { styles := some (.singleton .rowTitle) } (.text kind row.name)
  | none => .styledText kind (.singleton .rowTitle) row.name

/-- A heading and a table of named tags, or nothing without rows. -/
def namedTable (title : String) (kind : Kind) (rows : List NamedTag) : Fragment Build :=
  .onlyIf (!rows.isEmpty) <|
    .header 4 title kind ++
      .table { kind := some kind, sourceSets := some (.ofList (rows.map NamedTag.id)) } [] none
        (rows.map fun row =>
          ({ sourceSets := some (.singleton row.id), kind := some kind },
            rowTitle kind row ++ .comment row.root))

/-- The names of the samples. -/
def samples (tags : List SourcedTag) : Fragment Build :=
  let named := tags.filterMap fun sourced =>
    match sourced.tag with
    | .sample name _ => some (sourced.id, name)
    | _ => none
  .onlyIf (!named.isEmpty) <|
    .header 4 "Samples" .sample ++
      .forEach named fun (id, name) =>
        .group
          { sourceSets := some (.singleton id), kind := some .sample
            styles := some (.singleton .monospace) }
          (.text .sample name)

/-- The full description of a declaration. -/
def descriptions (renderers : List TagRenderer) (declaration : Declaration) : Fragment Build :=
  let tags := declaration.sourcedTags
  .concat [
    deprecation tags,
    description declaration,
    customTags TagRenderer.description renderers tags,
    unnamedTags isReturn tags,
    unnamedTags isSince tags,
    unnamedTags isAuthor tags,
    namedTable "Parameters" .parameters (tags.filterMap parameterRow?),
    namedTable "See also" .comment (tags.filterMap referenceRow?),
    namedTable "Throws" .comment (tags.filterMap exceptionRow?),
    samples tags]

/-- The group of the first paragraph of a comment in some source sets. -/
def briefComment (sourceSets : SourceSets) (root : Markup) : Fragment Build :=
  .group { sourceSets := some sourceSets, kind := some .briefComment }
    (.comment root.firstParagraph)

/-- The first paragraph of the description in every source set of the declaration. -/
def brief (declaration : Declaration) : Fragment Build :=
  .forEach declaration.sourceSets.toList fun id =>
    .forSome ((declaration.documentation.get? id).bind declaration.describingTag?) fun tag =>
      briefComment (.singleton id) tag.root

/-- The briefs of the custom tags of a declaration. -/
def customTagBriefs (renderers : List TagRenderer) (declaration : Declaration) : Fragment Build :=
  customTags TagRenderer.brief renderers declaration.sourcedTags

end Section

end DocPages
