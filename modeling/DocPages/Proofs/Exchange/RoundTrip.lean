import DocPages.Exchange.Declaration
import DocPages.Proofs.Json.Decoding
import DocPages.Proofs.Platform.SourceSet

/-!
# Round trips of exchange forms

What is written in an exchange form is read back unchanged. For the recursive forms the induction is
on the value, with any bound on the depth that the written form keeps to, since a decoder bounds the
depth by that of the whole form. An identifier of a source set is a single string, which is read
back only if its first slash is the one that ends the scope.
-/

namespace DocPages

open Decoder Record

theorem Json.isSound_ofText? (text : Option String) : (Json.ofText? text).isSound = true :=
  isSound_ofOption reads_string text

/-! ## Identities -/

namespace SignatureType

mutual

/-- A type is read with any bound on the depth that its written form keeps to. -/
private theorem reads_within : (type : SignatureType) → (bound : Nat) → type.toJson.depth ≤ bound →
    Reads (ofJsonWithin bound) type.toJson type
  | type, 0, deep => (Nat.not_lt_of_le deep type.toJson.depth_pos).elim
  | .constructor fullName params, bound + 1, deep => by
    have below := Reads.list
      (forall₂_reads_within params bound (Json.depthList_le_of_mem deep "params" (by simp)))
    rw [toJson]
    refine reads_of_tagged ["constructor", "param", "nullable", "star"] (by decide) (by simp)
      (by simp [Json.isSound_ofMembers, below.sound]) fun kept json stated => ?_
    rw [ofJsonWithin, stated]
    simp only [Option.bind_eq_bind, Option.bind_some]
    rw [required_of_reads ?_ (reads_string fullName), defaulting_of_reads ?_ below] <;> rfl
  | .param name, bound + 1, deep => by
    rw [toJson]
    refine reads_of_tagged ["constructor", "param", "nullable", "star"] (by decide) (by simp)
      (by simp [Json.isSound_ofMembers]) fun kept json stated => ?_
    rw [ofJsonWithin, stated]
    simp only [Option.bind_eq_bind, Option.bind_some]
    rw [required_of_reads ?_ (reads_string name)] <;> rfl
  | .nullable wrapped, bound + 1, deep => by
    have below := reads_within wrapped bound (Json.depth_le_of_mem deep "wrapped" (by simp))
    rw [toJson]
    refine reads_of_tagged ["constructor", "param", "nullable", "star"] (by decide) (by simp)
      (by simp [Json.isSound_ofMembers, below.sound]) fun kept json stated => ?_
    rw [ofJsonWithin, stated]
    simp only [Option.bind_eq_bind, Option.bind_some]
    rw [required_of_reads ?_ below] <;> rfl
  | .star, bound + 1, deep => by
    rw [toJson]
    refine reads_of_tagged ["constructor", "param", "nullable", "star"] (by decide) (by simp)
      rfl fun kept json stated => ?_
    rw [ofJsonWithin, stated]
    rfl

private theorem forall₂_reads_within : (types : List SignatureType) → (bound : Nat) →
    Json.depthList (toJsonList types) ≤ bound →
      List.Forall₂ (Reads (ofJsonWithin bound)) (toJsonList types) types
  | [], _, _ => .nil
  | head :: tail, bound, deep =>
    have ⟨headDeep, tailDeep⟩ := Nat.max_le.mp deep
    .cons (reads_within head bound headDeep) (forall₂_reads_within tail bound tailDeep)

end

theorem reads_toJson (type : SignatureType) : Reads ofJson type.toJson type :=
  .of_within (reads_within type _ Nat.le.refl)

theorem reads_toJsonList (types : List SignatureType) :
    Reads (Decoder.list ofJson) (.array (toJsonList types)) types := by
  refine Reads.list ?_
  induction types with
  | nil => exact .nil
  | cons head tail ih => exact .cons head.reads_toJson ih

end SignatureType

theorem CallableId.reads_toJson (callable : CallableId) :
    Reads ofJson callable.toJson callable := by
  have receiver := Json.isSound_ofOption SignatureType.reads_toJson callable.receiver
  have params := SignatureType.reads_toJsonList callable.params
  refine reads_of_members (by simp [Json.isSound_ofMembers, receiver, params.sound])
    fun kept json stated => ?_
  rw [ofJson, stated]
  simp only [Option.bind_eq_bind, Option.bind_some]
  rw [required_of_reads ?_ (reads_string callable.name),
    optional_of_reads ?_ SignatureType.reads_toJson, defaulting_of_reads ?_ params] <;> rfl

theorem Dri.reads_toJson (dri : Dri) : Reads ofJson dri.toJson dri := by
  have callable := Json.isSound_ofOption CallableId.reads_toJson dri.callable
  refine reads_of_members (by simp [Json.isSound_ofMembers, Json.isSound_ofText?, callable])
    fun kept json stated => ?_
  rw [ofJson, stated]
  simp only [Option.bind_eq_bind, Option.bind_some]
  rw [optional_of_reads ?_ reads_string, optional_of_reads ?_ reads_string,
    optional_of_reads ?_ CallableId.reads_toJson, optional_of_reads ?_ reads_string] <;> rfl

/-! ## Comments -/

namespace Markup

mutual

/-- Markup is read with any bound on the depth that its written form keeps to. -/
private theorem reads_within : (markup : Markup) → (bound : Nat) →
    markup.toJson.depth ≤ bound → Reads (ofJsonWithin bound) markup.toJson markup
  | markup, 0, deep => (Nat.not_lt_of_le deep markup.toJson.depth_pos).elim
  | .text body, bound + 1, deep => by
    rw [toJson]
    refine reads_of_tagged variantNames (by decide) (by simp) (by simp [Json.isSound_ofMembers])
      fun kept json stated => ?_
    rw [ofJsonWithin, stated]
    simp only [Option.bind_eq_bind, Option.bind_some]
    rw [required_of_reads ?_ (reads_string body)] <;> rfl
  | .paragraph children, bound + 1, deep | .bold children, bound + 1, deep
  | .italic children, bound + 1, deep | .codeInline children, bound + 1, deep
  | .unorderedList children, bound + 1, deep | .listItem children, bound + 1, deep
  | .root children, bound + 1, deep => by
    have below := Reads.list
      (forall₂_reads_within children bound (Json.depthList_le_of_mem deep "children" (by simp)))
    rw [toJson]
    refine reads_of_tagged variantNames (by decide) (by simp)
      (by simp [Json.isSound_ofMembers, below.sound]) fun kept json stated => ?_
    rw [ofJsonWithin, stated]
    simp only [Option.bind_eq_bind, Option.bind_some]
    rw [defaulting_of_reads ?_ below] <;> rfl
  | .codeBlock language children, bound + 1, deep => by
    have below := Reads.list
      (forall₂_reads_within children bound (Json.depthList_le_of_mem deep "children" (by simp)))
    rw [toJson]
    refine reads_of_tagged variantNames (by decide) (by simp)
      (by simp [Json.isSound_ofMembers, Json.isSound_ofText?, below.sound])
      fun kept json stated => ?_
    rw [ofJsonWithin, stated]
    simp only [Option.bind_eq_bind, Option.bind_some]
    rw [optional_of_reads ?_ reads_string, defaulting_of_reads ?_ below] <;> rfl
  | .declarationLink dri children, bound + 1, deep => by
    have below := Reads.list
      (forall₂_reads_within children bound (Json.depthList_le_of_mem deep "children" (by simp)))
    rw [toJson]
    refine reads_of_tagged variantNames (by decide) (by simp)
      (by simp [Json.isSound_ofMembers, dri.reads_toJson.sound, below.sound])
      fun kept json stated => ?_
    rw [ofJsonWithin, stated]
    simp only [Option.bind_eq_bind, Option.bind_some]
    rw [required_of_reads ?_ dri.reads_toJson, defaulting_of_reads ?_ below] <;> rfl
  | .externalLink href children, bound + 1, deep => by
    have below := Reads.list
      (forall₂_reads_within children bound (Json.depthList_le_of_mem deep "children" (by simp)))
    rw [toJson]
    refine reads_of_tagged variantNames (by decide) (by simp)
      (by simp [Json.isSound_ofMembers, below.sound]) fun kept json stated => ?_
    rw [ofJsonWithin, stated]
    simp only [Option.bind_eq_bind, Option.bind_some]
    rw [required_of_reads ?_ (reads_string href), defaulting_of_reads ?_ below] <;> rfl
  | .lineBreak, bound + 1, deep => by
    rw [toJson]
    refine reads_of_tagged variantNames (by decide) (by simp) rfl fun kept json stated => ?_
    rw [ofJsonWithin, stated]
    rfl

private theorem forall₂_reads_within : (list : List Markup) → (bound : Nat) →
    Json.depthList (toJsonList list) ≤ bound →
      List.Forall₂ (Reads (ofJsonWithin bound)) (toJsonList list) list
  | [], _, _ => .nil
  | head :: tail, bound, deep =>
    have ⟨headDeep, tailDeep⟩ := Nat.max_le.mp deep
    .cons (reads_within head bound headDeep) (forall₂_reads_within tail bound tailDeep)

end

theorem reads_toJson (markup : Markup) : Reads ofJson markup.toJson markup :=
  .of_within (reads_within markup _ Nat.le.refl)

end Markup

theorem CommentTag.reads_toJson (tag : CommentTag) : Reads ofJson tag.toJson tag := by
  cases tag with
  | description root | returns root | since root | author root | deprecated root =>
      refine reads_of_tagged variantNames (by decide) (by simp)
        (by simp [Json.isSound_ofMembers, root.reads_toJson.sound]) fun kept json stated => ?_
      rw [ofJson, stated]
      simp only [Option.bind_eq_bind, Option.bind_some]
      rw [required_of_reads ?_ root.reads_toJson] <;> rfl
  | param name root | sample name root | property name root | custom name root =>
      refine reads_of_tagged variantNames (by decide) (by simp)
        (by simp [Json.isSound_ofMembers, root.reads_toJson.sound]) fun kept json stated => ?_
      rw [ofJson, stated]
      simp only [Option.bind_eq_bind, Option.bind_some]
      rw [required_of_reads ?_ root.reads_toJson, required_of_reads ?_ (reads_string name)] <;> rfl
  | throws name target root | see name target root =>
      have soundTarget := Json.isSound_ofOption Dri.reads_toJson target
      refine reads_of_tagged variantNames (by decide) (by simp)
        (by simp [Json.isSound_ofMembers, soundTarget, root.reads_toJson.sound])
        fun kept json stated => ?_
      rw [ofJson, stated]
      simp only [Option.bind_eq_bind, Option.bind_some]
      rw [required_of_reads ?_ root.reads_toJson, required_of_reads ?_ (reads_string name),
        optional_of_reads ?_ Dri.reads_toJson] <;> rfl

theorem Comment.reads_toJson (comment : Comment) : Reads ofJson comment.toJson comment := by
  have tags : Reads (Decoder.list CommentTag.ofJson) (.array (comment.tags.map CommentTag.toJson))
      comment.tags := by
    refine Reads.list ?_
    rw [List.forall₂_map_left_iff, List.forall₂_same]
    exact fun tag _ => tag.reads_toJson
  refine reads_of_members (by simp [Json.isSound_ofMembers, tags.sound]) fun kept json stated => ?_
  rw [ofJson, stated]
  simp only [Option.bind_eq_bind, Option.bind_some]
  rw [defaulting_of_reads ?_ tags] <;> rfl

/-! ## Uses of types -/

/-- The value of what makes a type a function type. -/
theorem FunctionForm.reads (form : FunctionForm) :
    Reads (Record.decoder fun record =>
        (record.defaulting "has_receiver" false .bool).bind fun hasReceiver => pure { hasReceiver })
      (.ofMembers [("has_receiver", .bool form.hasReceiver)]) form := by
  refine reads_of_members rfl fun kept json stated => ?_
  rw [Record.decoder, stated]
  simp only [Option.bind_eq_bind, Option.bind_some]
  rw [defaulting_of_reads ?_ (reads_bool form.hasReceiver)] <;> rfl

namespace TypeUse

mutual

/-- A use of a type is read with any bound on the depth that its written form keeps to. -/
private theorem reads_within : (type : TypeUse) → (bound : Nat) → type.toJson.depth ≤ bound →
    Reads (ofJsonWithin bound) type.toJson type
  | type, 0, deep => (Nat.not_lt_of_le deep type.toJson.depth_pos).elim
  | ⟨dri, path, arguments, nullable, function⟩, bound + 1, deep => by
    have below := Reads.list
      (forall₂_reads_within arguments bound (Json.depthList_le_of_mem deep "arguments" (by simp)))
    have soundDri := Json.isSound_ofOption Dri.reads_toJson dri
    have soundFunction := Json.isSound_ofOption FunctionForm.reads function
    have segments : Reads (Decoder.list .string) (.array (path.map .ofString)) path := by
      refine Reads.list ?_
      rw [List.forall₂_map_left_iff, List.forall₂_same]
      exact fun segment _ => reads_string segment
    rw [toJson]
    refine reads_of_members (by simp [Json.isSound_ofMembers, soundDri, segments.sound, below.sound,
      (reads_bool nullable).sound, soundFunction]) fun kept json stated => ?_
    rw [ofJsonWithin, stated]
    simp only [Option.bind_eq_bind, Option.bind_some]
    rw [optional_of_reads ?_ Dri.reads_toJson, defaulting_of_reads ?_ segments,
      defaulting_of_reads ?_ below, defaulting_of_reads ?_ (reads_bool nullable),
      optional_of_reads ?_ FunctionForm.reads] <;> rfl

private theorem forall₂_reads_within : (types : List TypeUse) → (bound : Nat) →
    Json.depthList (toJsonList types) ≤ bound →
      List.Forall₂ (Reads (ofJsonWithin bound)) (toJsonList types) types
  | [], _, _ => .nil
  | head :: tail, bound, deep =>
    have ⟨headDeep, tailDeep⟩ := Nat.max_le.mp deep
    .cons (reads_within head bound headDeep) (forall₂_reads_within tail bound tailDeep)

end

theorem reads_toJson (type : TypeUse) : Reads ofJson type.toJson type :=
  .of_within (reads_within type _ Nat.le.refl)

end TypeUse

/-! ## Source sets -/

namespace SourceSetId

theorem reads_toJson {id : SourceSetId} (hasScope : id.scope ≠ "")
    (noSlash : '/' ∉ id.scope.toList) (hasName : id.name ≠ "") : Reads ofJson id.toJson id where
  read _ := ofText?_eq_some_iff.mpr ⟨rfl, hasScope, noSlash, hasName⟩
  sound := rfl
  present := nofun

end SourceSetId

theorem Platform.reads_key (platform : Platform) :
    Reads (.constant Platform.all Platform.key) (.ofString platform.key) platform := by
  refine reads_constant ?_ fun other _ sameKey => ?_
  · cases platform <;> decide
  · cases platform <;> cases other <;> simp [key] at sameKey ⊢

theorem SourceSet.reads_toJson {sourceSet : SourceSet} (hasScope : sourceSet.id.scope ≠ "")
    (noSlash : '/' ∉ sourceSet.id.scope.toList) (hasName : sourceSet.id.name ≠ "") :
    Reads ofJson sourceSet.toJson sourceSet := by
  have id := SourceSetId.reads_toJson hasScope noSlash hasName
  refine reads_of_members (by simp [Json.isSound_ofMembers, id.sound]) fun kept json stated => ?_
  rw [ofJson, stated]
  simp only [Option.bind_eq_bind, Option.bind_some]
  rw [required_of_reads ?_ id, required_of_reads ?_ (reads_string sourceSet.displayName),
    defaulting_of_reads ?_ sourceSet.platform.reads_key] <;> rfl

/-! ## All forms -/

/-- What is written in an exchange form is read back unchanged: comments with all that they hold,
uses of types, and every source set whose identifier has a scope without slashes and a name. -/
theorem ofJson_toJson (kept : Bool) :
    (∀ type : SignatureType, SignatureType.ofJson kept type.toJson = some type) ∧
    (∀ callable : CallableId, CallableId.ofJson kept callable.toJson = some callable) ∧
    (∀ dri : Dri, Dri.ofJson kept dri.toJson = some dri) ∧
    (∀ markup : Markup, Markup.ofJson kept markup.toJson = some markup) ∧
    (∀ tag : CommentTag, CommentTag.ofJson kept tag.toJson = some tag) ∧
    (∀ comment : Comment, Comment.ofJson kept comment.toJson = some comment) ∧
    (∀ type : TypeUse, TypeUse.ofJson kept type.toJson = some type) ∧
    ∀ sourceSet : SourceSet, sourceSet.id.scope ≠ "" → '/' ∉ sourceSet.id.scope.toList →
      sourceSet.id.name ≠ "" → SourceSet.ofJson kept sourceSet.toJson = some sourceSet :=
  ⟨fun type => type.reads_toJson.read kept, fun callable => callable.reads_toJson.read kept,
    fun dri => dri.reads_toJson.read kept, fun markup => markup.reads_toJson.read kept,
    fun tag => tag.reads_toJson.read kept, fun comment => comment.reads_toJson.read kept,
    fun type => type.reads_toJson.read kept, fun _ hasScope noSlash hasName =>
      (SourceSet.reads_toJson hasScope noSlash hasName).read kept⟩

/-- The name of a source set may have slashes. -/
theorem ofJson_toJson_slashed :
    let sourceSet : SourceSet := ⟨⟨"shapes", "jvm/main"⟩, "JVM", .jvm⟩
    sourceSet.id.scope ≠ "" ∧ '/' ∉ sourceSet.id.scope.toList ∧ sourceSet.id.name ≠ "" ∧
      sourceSet.id.toJson = .ofString "shapes/jvm/main" ∧
      SourceSet.ofJson false sourceSet.toJson = some sourceSet :=
  have ⟨_, _, _, _, _, _, _, sourceSets⟩ := ofJson_toJson false
  ⟨by decide, by decide, by decide, rfl, sourceSets _ (by decide) (by decide) (by decide)⟩

end DocPages
