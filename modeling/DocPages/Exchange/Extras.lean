import DocPages.Declaration.View
import DocPages.Exchange.Declaration

/-!
# Extra properties by key

The second exchange form of extra properties is an object with a member for every property, named
by its key. It also states the properties that are only added while pages are built, which the list
among the members of a declaration cannot hold. Written values are abridged: an identity is its
display form, and a declaration the line that sums it up.
-/

namespace DocPages

/-- The array of the given texts. -/
def Json.ofTexts (texts : List String) : Json := .array (texts.map .ofString)

/-- A constant with a name, read from that name alone. -/
def Decoder.named {α : Type} (ofName? : String → Option α) : Decoder α := fun kept json => do
  ofName? (← string kept json)

/-- The abridged value of a set of identities. -/
def OrderedSet.displayDris (dris : OrderedSet Dri) : Json := .ofTexts (dris.toList.map Dri.display)

/-- The value of a set of source sets. -/
def SourceSets.toJson (ids : SourceSets) : Json := .ofTexts (ids.toList.map SourceSetId.display)

/-- The line that sums a declaration up: its kind, its name before and after clashes are settled,
its identity and its source sets. -/
def Declaration.summary (declaration : Declaration) : Json :=
  .array [.ofString declaration.kindName, .ofText? declaration.name?,
    .ofString declaration.nameAfterClash, .ofString declaration.dri.display,
    SourceSets.toJson declaration.sourceSets]

/-- The lines that sum up the declarations of a list. -/
def Declaration.summaries (declarations : List Declaration) : Json :=
  .array (declarations.map summary)

namespace Extras

/-- The properties with the one of a key as a value states it. -/
def insertJson? (extras : Extras Declaration) (key : ExtraKey) (kept : Bool) (json : Json) :
    Option (Extras Declaration) := do
  match key with
  | .clashAwareName => return { extras with clashAwareName := some (← Decoder.string kept json) }
  | .clashMarkers =>
    let markers ← Decoder.list .string kept json
    return { extras with clashMarkers := some (distinctBy id markers) }
  | .inheritedMember =>
    let inherited ← Decoder.dependent (.nullable Dri.ofJson) kept json
    return { extras with inheritedMember := some inherited }
  | .additionalModifiers =>
    let modifiers ← Decoder.dependent (.set (.constant Modifier.all Modifier.keyword)) kept json
    return { extras with additionalModifiers := some modifiers }
  | .annotations =>
    return { extras with annotations := some (← Decoder.list AnnotationUse.ofJson kept json) }
  | .callableExtensions =>
    return { extras with callableExtensions := some (← Decoder.list Declaration.ofJson kept json) }
  | .tab => return { extras with tab := some (← Decoder.named Content.Tab.ofName? kept json) }
  | .symbolAnchor =>
    let record ← Record.ofJson? kept json
    let anchor := {
      name := ← record.required "anchor_name" .string
      kind := ← record.required "content_kind" (.named Content.Kind.ofName?) }
    return { extras with symbolAnchor := some anchor }
  | .volatile => return { extras with volatile := some (← Decoder.string kept json) }

/-- The properties that an object states by key. -/
def ofKeyedJson : Decoder (Extras Declaration) := fun kept json => do
  let record ← Record.ofJson? kept json
  record.members.foldlM
    (fun extras (name, value) => do extras.insertJson? (← ExtraKey.ofName? name) kept value) .empty

/-- The abridged value of the property of a key. -/
def valueOf? (extras : Extras Declaration) : ExtraKey → Option Json
  | .clashAwareName => extras.clashAwareName.map .ofString
  | .clashMarkers => extras.clashMarkers.map .ofTexts
  | .inheritedMember =>
    extras.inheritedMember.map (Dependent.toJson fun dri => .ofText? (dri.map Dri.display))
  | .additionalModifiers =>
    extras.additionalModifiers.map
      (Dependent.toJson fun modifiers => .ofTexts (modifiers.toList.map Modifier.keyword))
  | .annotations =>
    extras.annotations.map fun uses => .array <| uses.map fun use =>
      .ofMembers [("dri", .ofString use.dri.display),
        ("params", .ofMembers (use.params.map fun (name, value) => (name, .ofString value)))]
  | .callableExtensions => extras.callableExtensions.map Declaration.summaries
  | .tab => extras.tab.map fun tab => .ofString tab.name
  | .symbolAnchor =>
    extras.symbolAnchor.map fun anchor =>
      .ofMembers [("anchor_name", .ofString anchor.name),
        ("content_kind", .ofString anchor.kind.name)]
  | .volatile => extras.volatile.map .ofString

/-- The abridged values of the properties by key. -/
def toKeyedJson (extras : Extras Declaration) : Json :=
  .ofMembers (extras.keys.filterMap fun key => (extras.valueOf? key).map (key.name, ·))

end Extras

end DocPages
