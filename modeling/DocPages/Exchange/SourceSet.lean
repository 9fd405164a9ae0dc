import DocPages.Json.Decoder
import DocPages.Platform.Dependent

/-!
# The exchange form of source sets

An identifier is a string of the form `scope/name`, which also serves as a key of the object that
states values per source set. Of a repeated key the last value counts.
-/

namespace DocPages

namespace SourceSetId

/-- The identifier that a value states. -/
def ofJson : Decoder SourceSetId := fun kept json => do
  ofText? (← Decoder.string kept json)

/-- The value of an identifier. -/
def toJson (id : SourceSetId) : Json :=
  .ofString id.display

end SourceSetId

def Platform.all : List Platform := [.common, .jvm, .js, .wasm, .native]

namespace SourceSet

/-- The source set that a value states. -/
def ofJson : Decoder SourceSet := fun kept json => do
  let record ← Record.ofJson? kept json
  return {
    id := ← record.required "id" SourceSetId.ofJson
    displayName := ← record.required "display_name" .string
    platform :=
      ← record.defaulting "analysis_platform" .common (.constant Platform.all Platform.key) }

/-- The value of a source set. -/
def toJson (sourceSet : SourceSet) : Json :=
  .ofMembers [("id", sourceSet.id.toJson), ("display_name", .ofString sourceSet.displayName),
    ("analysis_platform", .ofString sourceSet.platform.key)]

end SourceSet

namespace Decoder

variable {α : Type}

/-- A set, listed in any order and with repetitions. -/
def set [Ord α] [DecidableEq α] (decode : Decoder α) : Decoder (OrderedSet α) :=
  fun kept json => (list decode kept json).map .ofList

/-- A value per source set. -/
def dependent (decode : Decoder α) : Decoder (Dependent α) := fun kept json => do
  let entries ← entries decode kept json
  return .ofList (← entries.mapM fun (key, value) => (SourceSetId.ofText? key).map (·, value))

end Decoder

/-- The value of a map from source sets, given the value of what it holds. -/
def Dependent.toJson {α : Type} (encode : α → Json) (map : Dependent α) : Json :=
  .ofMembers (map.entries.map fun (id, value) => (id.display, encode value))

end DocPages
