import DocPages.Content.Coverage
import DocPages.Content.Fragment
import DocPages.Content.Variants
import DocPages.Exchange.Extras

/-!
# The exchange form of content

A node is an object that names its form and its role. Written nodes state everything but empty
styles and extra properties, with identities in display form, so that the text of a tree can be
read and compared; a node that is read may leave out whatever is empty.
-/

namespace DocPages

/-- The value of a field that may be absent or null, which then stands for the default. -/
def Record.fallingBack {α : Type} (record : Record) (key : String) (default : α)
    (decode : Decoder α) : Option α := do
  return (← record.optional key decode).getD default

namespace Content

/-- The styles that a value states. -/
def Style.setOfJson : Decoder (OrderedSet Style) := .set (.named Style.ofName?)

/-- The value of a set of styles. -/
def Style.setToJson (styles : OrderedSet Style) : Json :=
  .ofTexts (styles.toList.map Style.name)

namespace Scope

/-- The scope that a record states among its members. -/
def ofRecord (record : Record) : Option Scope := do
  return {
    dris := ← record.fallingBack "dri" {} (.set Dri.ofJson)
    kind := ← record.fallingBack "kind" .main (.named Kind.ofName?)
    sourceSets := ← record.fallingBack "source_sets" {} (.set SourceSetId.ofJson)
    styles := ← record.fallingBack "style" {} Style.setOfJson
    extras := ← record.fallingBack "extra" .empty Extras.ofKeyedJson }

/-- The scope that a value states. -/
def ofJson : Decoder Scope := Record.decoder ofRecord

/-- The members that state a scope. -/
def toMembers (scope : Scope) : List (String × Json) :=
  [("dri", scope.dris.displayDris), ("kind", .ofString scope.kind.name),
    ("source_sets", SourceSets.toJson scope.sourceSets)] ++
    (if scope.styles.isEmpty then [] else [("style", Style.setToJson scope.styles)]) ++
    (if scope.extras.keys.isEmpty then [] else [("extra", scope.extras.toKeyedJson)])

end Scope

/-- The parts of a scope to be replaced that a value states. A role given as `or_kind` counts where
no other is given. -/
def Overrides.ofJson : Decoder Overrides :=
  Record.decoder fun record => do
    let kind ← record.optional "kind" (.named Kind.ofName?)
    let otherwise ← record.optional "or_kind" (.named Kind.ofName?)
    return {
      dris := ← record.optional "dri" (.set Dri.ofJson)
      sourceSets := ← record.optional "source_sets" (.set SourceSetId.ofJson)
      kind := kind.or otherwise
      styles := ← record.optional "styles" Style.setOfJson
      extras := ← record.optional "extra" Extras.ofKeyedJson }

/-- The settings of a block of rows that a value states. -/
def BlockSettings.ofJson : Decoder BlockSettings :=
  Record.decoder fun record => do
    return {
      sourceSets := ← record.fallingBack "source_sets" {} (.set SourceSetId.ofJson)
      extras := ← record.fallingBack "extra" .empty Extras.ofKeyedJson
      sorted := ← record.fallingBack "sorted" true .bool
      anchored := ← record.fallingBack "anchored" false .bool }

namespace LinkTarget

/-- The target that a value states: a string is an address, an object an identity. -/
def ofJson : Decoder LinkTarget
  | _, .string url => url.map .address
  | kept, value => (Dri.ofJson kept value).map .declaration

/-- The value of a target. -/
def toJson : LinkTarget → Json
  | .declaration dri => .ofMembers [("dri", .ofString dri.display)]
  | .address url => .ofMembers [("url", .ofString url)]

end LinkTarget

namespace Node

/-- The node that a value of at most the given depth states. -/
def ofJsonWithin : Nat → Decoder Node
  | 0, _, _ => none
  | bound + 1, kept, json => do
    let record ← Record.ofJson? kept json
    let scope ← Scope.ofRecord record
    let nodes := fun key => record.fallingBack key [] (.list (ofJsonWithin bound))
    let part := fun key => record.optional key (ofJsonWithin bound)
    let text := fun key => record.fallingBack key "" .string
    let flag := fun key => record.fallingBack key false .bool
    match ← record.required "node" (.named Shape.ofName?) with
    | .text => return .text scope (← text "text")
    | .lineBreak => return .lineBreak scope
    | .group => return .group scope (← nodes "children")
    | .header =>
      return .header scope (← record.fallingBack "level" 0 .natural) (← nodes "children")
    | .code => return .code scope (← text "language") (← flag "block") (← nodes "children")
    | .link =>
      let target ← record.fallingBack "target" (.address "") LinkTarget.ofJson
      return .link scope target (← nodes "children")
    | .table => return .table scope (← part "caption") (← nodes "header") (← nodes "children")
    | .list => return .list scope (← flag "ordered") (← nodes "children")
    | .divergentGroup =>
      return .divergentGroup scope (← text "group_id") (← flag "hinted") (← nodes "children")
    | .divergentInstance =>
      return .divergentInstance scope (← part "before") (← part "divergent") (← part "after")
    | .platformHinted =>
      return .platformHinted scope (← record.required "inner" (ofJsonWithin bound))

/-- The node that a value states. -/
def ofJson : Decoder Node :=
  fun kept json => ofJsonWithin json.depth kept json

/-- The value of a node of a form, given the members that state the parts of that form. -/
def stated (shape : Shape) (scope : Scope) (parts : List (String × Json)) : Json :=
  .ofMembers (("node", .ofString shape.name) :: scope.toMembers ++ parts)

mutual

/-- The value of a node. -/
def toJson : Node → Json
  | .text scope body => stated .text scope [("text", .ofString body)]
  | .lineBreak scope => stated .lineBreak scope []
  | .group scope children => stated .group scope [("children", .array (toJsonList children))]
  | .header scope level children =>
    stated .header scope [("level", .ofNat level), ("children", .array (toJsonList children))]
  | .code scope language isBlock children =>
    stated .code scope [("language", .ofString language), ("block", .bool isBlock),
      ("children", .array (toJsonList children))]
  | .link scope target children =>
    stated .link scope [("target", target.toJson), ("children", .array (toJsonList children))]
  | .table scope caption titles rows =>
    stated .table scope [("caption", toJsonPart caption), ("header", .array (toJsonList titles)),
      ("children", .array (toJsonList rows))]
  | .list scope ordered children =>
    stated .list scope [("ordered", .bool ordered), ("children", .array (toJsonList children))]
  | .divergentGroup scope groupId hinted children =>
    stated .divergentGroup scope [("group_id", .ofString groupId), ("hinted", .bool hinted),
      ("children", .array (toJsonList children))]
  | .divergentInstance scope before divergent after =>
    stated .divergentInstance scope [("before", toJsonPart before),
      ("divergent", toJsonPart divergent), ("after", toJsonPart after)]
  | .platformHinted scope inner => stated .platformHinted scope [("inner", toJson inner)]

/-- The values of a list of nodes. -/
def toJsonList : List Node → List Json
  | [] => []
  | head :: tail => toJson head :: toJsonList tail

/-- The value of an optional node. -/
def toJsonPart : Option Node → Json
  | none => .null
  | some node => toJson node

end

end Node

/-- The value of a coverage gap. -/
def CoverageGap.toJson (gap : CoverageGap) : Json :=
  .ofMembers [("node", .ofString gap.shape.name), ("kind", .ofString gap.kind.name),
    ("dri", gap.dris.displayDris), ("uncovered", SourceSets.toJson gap.uncovered)]

/-- The value of collapsed variants: the texts of all parts. -/
def CollapsedInstances.toJson (row : CollapsedInstances Node) : Json :=
  .ofMembers [("before", .ofText? (row.before.map Node.textContent)),
    ("after", .ofText? (row.after.map Node.textContent)),
    ("variants", .array (row.variants.map fun variant =>
      .array [SourceSets.toJson variant.sourceSets, .ofString variant.content.textContent]))]

end Content

end DocPages
