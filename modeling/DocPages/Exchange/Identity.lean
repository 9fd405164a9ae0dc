import DocPages.Declaration.Identity
import DocPages.Json.Decoder

/-!
# The exchange form of identities

Identities as JSON values. Every part is written, an absent one as null; in reading an absent part
may be left out.
-/

namespace DocPages

/-- The value of an optional text. -/
def Json.ofText? (text : Option String) : Json :=
  .ofOption (text.map .ofString)

namespace SignatureType

/-- The type that a value of at most the given depth states. -/
def ofJsonWithin : Nat → Decoder SignatureType
  | 0, _, _ => none
  | bound + 1, kept, json => do
    let (variant, record) ←
      Record.tagged? "type" ["constructor", "param", "nullable", "star"] kept json
    match variant with
    | "constructor" =>
      return .constructor (← record.required "full_name" .string)
        (← record.defaulting "params" [] (.list (ofJsonWithin bound)))
    | "param" => return .param (← record.required "name" .string)
    | "nullable" => return .nullable (← record.required "wrapped" (ofJsonWithin bound))
    | _ => return .star

/-- The type that a value states. -/
def ofJson : Decoder SignatureType :=
  fun kept json => ofJsonWithin json.depth kept json

mutual

/-- The value of a type. -/
def toJson : SignatureType → Json
  | .constructor fullName params =>
    .ofMembers [("type", .ofString "constructor"), ("full_name", .ofString fullName),
      ("params", .array (toJsonList params))]
  | .param name => .ofMembers [("type", .ofString "param"), ("name", .ofString name)]
  | .nullable wrapped =>
    .ofMembers [("type", .ofString "nullable"), ("wrapped", wrapped.toJson)]
  | .star => .ofMembers [("type", .ofString "star")]

/-- The values of a list of types. -/
def toJsonList : List SignatureType → List Json
  | [] => []
  | head :: tail => head.toJson :: toJsonList tail

end

end SignatureType

namespace CallableId

/-- The callable that a value states. -/
def ofJson : Decoder CallableId := fun kept json => do
  let record ← Record.ofJson? kept json
  return {
    name := ← record.required "name" .string
    receiver := ← record.optional "receiver" SignatureType.ofJson
    params := ← record.defaulting "params" [] (.list SignatureType.ofJson) }

/-- The value of a callable. -/
def toJson (callable : CallableId) : Json :=
  .ofMembers [("name", .ofString callable.name),
    ("receiver", .ofOption (callable.receiver.map SignatureType.toJson)),
    ("params", .array (SignatureType.toJsonList callable.params))]

end CallableId

namespace Dri

/-- The identity that a value states. -/
def ofJson : Decoder Dri := fun kept json => do
  let record ← Record.ofJson? kept json
  return {
    packageName := ← record.optional "package_name" .string
    classNames := ← record.optional "class_names" .string
    callable := ← record.optional "callable" CallableId.ofJson
    extra := ← record.optional "extra" .string }

/-- The value of an identity. -/
def toJson (dri : Dri) : Json :=
  .ofMembers [("package_name", .ofText? dri.packageName), ("class_names", .ofText? dri.classNames),
    ("callable", .ofOption (dri.callable.map CallableId.toJson)), ("extra", .ofText? dri.extra)]

end Dri

end DocPages
