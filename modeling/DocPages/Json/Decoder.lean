import DocPages.Json.Value

/-!
# Decoding JSON values

A decoder reads a value of a known type, or fails. It is told whether the value was kept before its
type was known: where the type depends on a tag, or the members of one object belong to several
records, all values are kept until the type is settled. A kept value has to be sound, and a variant
of it may also be named by its position.

A field of a record must not be given twice. Members that are no fields are ignored.
-/

namespace DocPages

/-- A reader of values of one type, given whether the value was kept. -/
abbrev Decoder (α : Type) := (kept : Bool) → Json → Option α

namespace Decoder

variable {α : Type}

/-- A string with characters. -/
def string : Decoder String
  | _, .string text => text
  | _, _ => none

def bool : Decoder Bool
  | _, .bool value => some value
  | _, _ => none

/-- A number without sign, fraction and exponent. -/
def natural : Decoder Nat
  | _, .number literal => literal.toNat?
  | _, _ => none

/-- A value, or null for its absence. -/
def nullable (decode : Decoder α) : Decoder (Option α)
  | _, .null => some none
  | kept, value => (decode kept value).map some

/-- An array of values. -/
def list (decode : Decoder α) : Decoder (List α)
  | kept, .array items => items.mapM (decode kept)
  | _, _ => none

/-- The keys and values of an object, repetitions included. -/
def entries (decode : Decoder α) : Decoder (List (String × α))
  | kept, .object members =>
    members.mapM fun (key, value) => do return (← key, ← decode kept value)
  | _, _ => none

/-- One of some constants with their names: the name alone, or as the only key of an object. -/
def constant (all : List α) (name : α → String) : Decoder α
  | _, .string (some text) | _, .object [(some text, .null)]
  | true, .object [(some text, .object [])] => all.find? fun value => name value == text
  | _, _ => none

end Decoder

/-- The members of an object that has a text for every key. -/
structure Record where
  members : List (String × Json)
  /-- The values were kept before their types were known. -/
  kept : Bool

namespace Record

variable {α : Type}

/-- The record of an object. -/
def ofJson? (kept : Bool) : Json → Option Record
  | .object members => do
    let members ← members.mapM fun (key, value) => key.map fun key => (key, value)
    return { members, kept }
  | _ => none

/-- The value of a field that is given at most once. -/
def value? (record : Record) (key : String) : Option (Option Json) :=
  match record.members.filter (·.1 == key) with
  | [] => some none
  | [(_, value)] => some (some value)
  | _ => none

/-- A field that must be present. -/
def required (record : Record) (key : String) (decode : Decoder α) : Option α := do
  decode record.kept (← ← record.value? key)

/-- The decoder of objects, given how their record is read. -/
def decoder (read : Record → Option α) : Decoder α := fun kept json => do
  read (← ofJson? kept json)

/-- A field with a value for its absence. -/
def defaulting (record : Record) (key : String) (default : α) (decode : Decoder α) : Option α := do
  match ← record.value? key with
  | none => return default
  | some value => decode record.kept value

/-- A field that may be absent or null. -/
def optional (record : Record) (key : String) (decode : Decoder α) : Option (Option α) :=
  record.defaulting key none decode.nullable

/-- The name of the variant that a tag states, and the record of the other members, which are kept
until the tag is known. -/
def tagged? (tag : String) (variants : List String) (kept : Bool) (json : Json) :
    Option (String × Record) := do
  let record ← ofJson? kept json
  let others := record.members.filter (·.1 != tag)
  let variant ←
    match ← record.value? tag with
    | some (.string (some name)) => if name ∈ variants then some name else none
    | some (.number literal) => if kept then variants[← literal.toNat?]? else none
    | _ => none
  if kept || others.all (·.2.isSound) then some (variant, { members := others, kept := true })
  else none

/-- The record of the own fields, and the record of the other members, which belong to another type
and are kept for it. -/
def sharing? (record : Record) (ownFields : List String) : Option (Record × Record) :=
  let (own, shared) := record.members.partition (·.1 ∈ ownFields)
  if record.kept || shared.all (·.2.isSound) then
    some ({ record with members := own }, { members := shared, kept := true })
  else none

end Record

mutual

/-- The number of nested levels of a value. -/
def Json.depth : Json → Nat
  | .null | .bool _ | .number _ | .string _ => 1
  | .array items => Json.depthList items + 1
  | .object members => Json.depthMembers members + 1

/-- The greatest depth in a list of values. -/
def Json.depthList : List Json → Nat
  | [] => 0
  | head :: tail => max head.depth (Json.depthList tail)

/-- The greatest depth in a list of members. -/
def Json.depthMembers : List (Option String × Json) → Nat
  | [] => 0
  | (_, value) :: rest => max value.depth (Json.depthMembers rest)

end

end DocPages
