import Mathlib.Data.List.Forall2
import DocPages.Json.Decoder

/-!
# Reading written values

What a decoder reads from a value that was written for it. A written value may be kept before its
type is known, so it is sound, and only the absence of a value is written as null. The variant and
the fields of a record are read from the members that state them.
-/

namespace DocPages

variable {α : Type} {decode : Decoder α}

namespace Decoder

/-- The decoder reads the value from its written form, kept or not, which is sound and not null. -/
structure Reads (decode : Decoder α) (written : Json) (value : α) : Prop where
  read (kept : Bool) : decode kept written = some value
  sound : written.isSound = true
  present : written ≠ .null

theorem reads_string (text : String) : Reads string (.ofString text) text :=
  ⟨fun _ => rfl, rfl, nofun⟩

theorem reads_bool (value : Bool) : Reads bool (.bool value) value :=
  ⟨fun _ => rfl, rfl, nofun⟩

/-- A listed constant is read from its name, if no other listed one has it. -/
theorem reads_constant {all : List α} {name : α → String} {value : α} (listed : value ∈ all)
    (distinct : ∀ other ∈ all, name other = name value → other = value) :
    Reads (constant all name) (.ofString (name value)) value where
  read kept := by
    have found : all.find? (fun other => name other == name value) = some value := by
      cases search : all.find? (fun other => name other == name value) with
      | none => exact absurd (List.find?_eq_none.mp search value listed) (by simp)
      | some other =>
          have sameName : name other = name value := by simpa using List.find?_some search
          rw [distinct other (List.mem_of_find?_eq_some search) sameName]
    cases kept <;> exact found
  sound := rfl
  present := nofun

/-- The elements of a list are read one by one. -/
theorem Reads.list {items : List Json} {values : List α}
    (each : List.Forall₂ (Reads decode) items values) :
    Reads (Decoder.list decode) (.array items) values where
  read kept := by
    show items.mapM (decode kept) = some values
    induction each with
    | nil => rfl
    | cons first _ ih => simp [first.read kept, ih]
  sound := by
    show Json.areSound items = true
    induction each with
    | nil => rfl
    | cons first _ ih => simp [Json.areSound, first.sound, ih]
  present := nofun

/-- The value or its absence, which is written as null, is read. -/
theorem nullable_ofOption {encode : α → Json} (each : ∀ value, Reads decode (encode value) value)
    (kept : Bool) (value? : Option α) :
    nullable decode kept (.ofOption (value?.map encode)) = some value? := by
  cases value? with
  | none => rfl
  | some value =>
      rw [Option.map_some, Json.ofOption, nullable, (each value).read kept, Option.map_some]
      exact (each value).present

/-- The bound on the depth that a decoder sets for itself suffices. -/
theorem Reads.of_within {within : Nat → Decoder α} {written : Json} {value : α}
    (reads : Reads (within written.depth) written value) :
    Reads (fun kept json => within json.depth kept json) written value :=
  ⟨reads.read, reads.sound, reads.present⟩

end Decoder

namespace Json

@[simp]
theorem isSound_ofString (text : String) : (ofString text).isSound = true := rfl

theorem isSound_ofOption {encode : α → Json} (each : ∀ value, decode.Reads (encode value) value)
    (value? : Option α) : (ofOption (value?.map encode)).isSound = true := by
  cases value? with
  | none => rfl
  | some value => exact (each value).sound

theorem isSound_ofMembers (members : List (String × Json)) :
    (ofMembers members).isSound = members.all fun member => member.2.isSound := by
  show areSoundMembers (members.map fun member => (some member.1, member.2)) = _
  induction members with
  | nil => rfl
  | cons head tail ih => simp [areSoundMembers, ih]

theorem depth_pos (json : Json) : 0 < json.depth := by
  cases json <;> exact Nat.succ_pos _

/-- The members of an object are less deep than the object. -/
theorem depth_le_of_mem {members : List (String × Json)} {bound : Nat}
    (deep : (ofMembers members).depth ≤ bound + 1) (key : String) {value : Json}
    (member : (key, value) ∈ members) : value.depth ≤ bound := by
  induction members with
  | nil => exact (List.not_mem_nil member).elim
  | cons head tail ih =>
      obtain ⟨headDeep, tailDeep⟩ := Nat.max_le.mp (Nat.le_of_succ_le_succ deep)
      rcases List.mem_cons.mp member with rfl | inTail
      · exact headDeep
      · exact ih (Nat.succ_le_succ tailDeep) inTail

/-- The items of an array among the members of an object are less deep than the object. -/
theorem depthList_le_of_mem {members : List (String × Json)} {bound : Nat}
    (deep : (ofMembers members).depth ≤ bound + 1) (key : String) {items : List Json}
    (member : (key, .array items) ∈ members) : depthList items ≤ bound :=
  Nat.le_of_succ_le (depth_le_of_mem deep key member)

end Json

namespace Record

/-- The record of an object has the members that it was written with. -/
theorem ofJson?_ofMembers (kept : Bool) (members : List (String × Json)) :
    ofJson? kept (.ofMembers members) = some ⟨members, kept⟩ := by
  have keyed : (members.map fun member => (some member.1, member.2)).mapM
      (fun member => member.1.map fun key => (key, member.2)) = some members := by
    induction members with
    | nil => rfl
    | cons head tail ih =>
        rw [List.map_cons, List.mapM_cons, ih]
        rfl
  exact congrArg (Option.bind · fun members => some (Record.mk members kept)) keyed

/-- What a decoder reads from a record is what it makes of the members. -/
theorem reads_of_members {members : List (String × Json)} {value : α}
    (sound : (Json.ofMembers members).isSound = true)
    (read : ∀ kept json, ofJson? kept json = some ⟨members, kept⟩ → decode kept json = some value) :
    decode.Reads (.ofMembers members) value where
  read kept := read kept _ (ofJson?_ofMembers kept members)
  sound := sound
  present := nofun

/-- A tagged record states its variant and its fields, which are kept. -/
theorem tagged?_ofMembers {tag variant : String} {variants : List String}
    {fields : List (String × Json)} (known : variant ∈ variants)
    (others : tag ∉ fields.map Prod.fst) (sound : (Json.ofMembers fields).isSound = true)
    (kept : Bool) :
    tagged? tag variants kept (.ofMembers ((tag, .ofString variant) :: fields)) =
      some (variant, ⟨fields, true⟩) := by
  have others : ∀ field ∈ fields, field.1 ≠ tag := by
    rintro field member rfl
    exact others (List.mem_map_of_mem member)
  have noTag : fields.filter (·.1 == tag) = [] := by simpa using others
  have noOther : fields.filter (·.1 != tag) = fields := by simpa using others
  rw [Json.isSound_ofMembers] at sound
  simp [tagged?, ofJson?_ofMembers, value?, noTag, noOther, sound, known, Json.ofString]

/-- What a decoder reads from a tagged record is what it makes of the variant and the fields. -/
theorem reads_of_tagged {tag variant : String} (variants : List String)
    {fields : List (String × Json)} {value : α} (known : variant ∈ variants)
    (others : tag ∉ fields.map Prod.fst) (sound : (Json.ofMembers fields).isSound = true)
    (read : ∀ kept json, tagged? tag variants kept json = some (variant, ⟨fields, true⟩) →
      decode kept json = some value) :
    decode.Reads (.ofMembers ((tag, .ofString variant) :: fields)) value where
  read kept := read kept _ (tagged?_ofMembers known others sound kept)
  sound := by
    rw [Json.isSound_ofMembers] at sound ⊢
    exact sound
  present := nofun

variable {record : Record} {key : String} {written : Json} {value : α}

theorem required_of_reads (field : record.value? key = some (some written))
    (reads : decode.Reads written value) : record.required key decode = some value := by
  rw [required, field]
  exact reads.read record.kept

theorem defaulting_of_reads {default : α} (field : record.value? key = some (some written))
    (reads : decode.Reads written value) : record.defaulting key default decode = some value := by
  rw [defaulting, field]
  exact reads.read record.kept

theorem optional_of_reads {encode : α → Json} {value? : Option α}
    (field : record.value? key = some (some (.ofOption (value?.map encode))))
    (each : ∀ value, decode.Reads (encode value) value) :
    record.optional key decode = some value? := by
  rw [optional, defaulting, field]
  exact Decoder.nullable_ofOption each record.kept value?

end Record

end DocPages
