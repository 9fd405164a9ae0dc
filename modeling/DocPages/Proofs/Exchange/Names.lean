import DocPages.Generation
import DocPages.Proofs.Declaration.Nesting

/-!
# Names in the exchange form

The list of extra properties in the exchange form has no entry for clash-aware names: they are only
given while siblings are spread over pages. A module that is read from a text has none, however deep
its declarations are nested.
-/

namespace DocPages

/-- The tokens of a text are those of its characters. -/
theorem Json.tokens?_ofList (characters : List Char) :
    tokens? (String.ofList characters) = tokensWithin characters.length characters := by
  rw [tokens?, String.length_ofList, String.toList_ofList]

namespace Decoder

variable {α : Type} {property : α → Prop}

/-- Every value that the decoder yields has the property. -/
def Yields (decode : Decoder α) (property : α → Prop) : Prop :=
  ∀ kept json value, decode kept json = some value → property value

private theorem forall_mem_of_mapM {step : Json → Option α}
    (each : ∀ json value, step json = some value → property value) {items : List Json}
    {values : List α} (read : items.mapM step = some values) :
    ∀ value ∈ values, property value := by
  induction items generalizing values with
  | nil =>
      obtain rfl := Option.some.inj read
      exact fun _ member => (List.not_mem_nil member).elim
  | cons head tail ih =>
      rw [List.mapM_cons] at read
      obtain ⟨first, isFirst, read⟩ := Option.bind_eq_some_iff.mp read
      obtain ⟨rest, isRest, read⟩ := Option.bind_eq_some_iff.mp read
      obtain rfl := Option.some.inj read
      exact List.forall_mem_cons.mpr ⟨each head first isFirst, ih isRest⟩

theorem Yields.list {decode : Decoder α} (yields : decode.Yields property) :
    (Decoder.list decode).Yields fun values => ∀ value ∈ values, property value := by
  intro kept json values read
  cases json with
  | array items => exact forall_mem_of_mapM (yields kept) read
  | null | bool | number | string | object => cases read

end Decoder

namespace Record

variable {α : Type} {property : α → Prop}

theorem yields_decoder {read : Record → Option α}
    (each : ∀ record value, read record = some value → property value) :
    (decoder read).Yields property := by
  intro kept json value decoded
  obtain ⟨record, -, isRead⟩ := Option.bind_eq_some_iff.mp decoded
  exact each record value isRead

/-- A field has a property that its default has and that its decoder ensures. -/
theorem property_of_defaulting {record : Record} {key : String} {default value : α}
    {decode : Decoder α} (yields : decode.Yields property)
    (read : record.defaulting key default decode = some value) (ofDefault : property default) :
    property value := by
  rw [defaulting] at read
  obtain ⟨field, -, read⟩ := Option.bind_eq_some_iff.mp read
  cases field with
  | none => exact Option.some.inj read ▸ ofDefault
  | some json => exact yields _ json value read

/-- The elements of a list field have a property that the decoder of elements ensures. -/
theorem forall_mem_of_defaulting {record : Record} {key : String} {values : List α}
    {decode : Decoder α} (yields : decode.Yields property)
    (read : record.defaulting key [] (.list decode) = some values) :
    ∀ value ∈ values, property value :=
  property_of_defaulting yields.list read fun _ member => (List.not_mem_nil member).elim

end Record

/-! ## Extra properties -/

variable {declaration : Decoder Declaration}

private theorem clashAwareName_addJson {extras added : Extras Declaration} {kept : Bool}
    {json : Json} (read : extras.addJson declaration kept json = some added) :
    added.clashAwareName = extras.clashAwareName := by
  rw [Extras.addJson] at read
  obtain ⟨⟨variant, record⟩, -, read⟩ := Option.bind_eq_some_iff.mp read
  dsimp only at read
  split at read
  all_goals
    obtain ⟨stated, -, read⟩ := Option.bind_eq_some_iff.mp read
    rw [← Option.some.inj read]

/-- The list of extra properties states no clash-aware name. -/
private theorem yields_extras :
    (Extras.ofJson declaration).Yields fun extras => extras.clashAwareName = none := by
  have run : ∀ (kept : Bool) (items : List Json) (first last : Extras Declaration),
      items.foldlM (fun extras item => extras.addJson declaration kept item) first = some last →
        last.clashAwareName = first.clashAwareName := by
    intro kept items
    induction items with
    | nil => exact fun first last read => Option.some.inj read ▸ rfl
    | cons head tail ih =>
        intro first last read
        rw [List.foldlM_cons] at read
        obtain ⟨added, step, rest⟩ := Option.bind_eq_some_iff.mp read
        rw [ih added last rest, clashAwareName_addJson step]
  intro kept json extras read
  cases json with
  | array items => exact run kept items _ extras read
  | null | bool | number | string | object => cases read

private theorem clashAwareName_common {record : Record} {common : Common}
    (read : Common.ofRecord declaration record = some common) :
    common.extras.clashAwareName = none := by
  simp only [Common.ofRecord, Option.bind_eq_bind, Option.bind_eq_some_iff, Option.pure_def,
    Option.some.injEq] at read
  obtain ⟨dri, -, name, -, sourceSets, -, documentation, -, extras, isExtras, rfl⟩ := read
  have unnamed := Record.property_of_defaulting yields_extras isExtras rfl
  exact unnamed

/-! ## Declarations -/

namespace Declaration

/-- Nothing that is declared within the declaration has a clash-aware name. -/
def IsUnnamed (declaration : Declaration) : Prop :=
  ∀ inner ∈ declaration.within, inner.extras.clashAwareName = none

private theorem IsUnnamed.of_members {declaration : Declaration}
    (own : declaration.extras.clashAwareName = none)
    (types : ∀ type ∈ declaration.memberTypes, type.IsUnnamed)
    (entries : ∀ entry ∈ declaration.enumEntries, entry.IsUnnamed)
    (functions : ∀ member ∈ declaration.memberFunctions, member.extras.clashAwareName = none)
    (properties : ∀ member ∈ declaration.memberProperties, member.extras.clashAwareName = none) :
    declaration.IsUnnamed := by
  intro inner member
  rw [within_eq] at member
  simp only [List.mem_cons, List.mem_append, List.mem_flatMap] at member
  rcases member with rfl | ((⟨type, isType, inType⟩ | ⟨entry, isEntry, inEntry⟩) | isFunction) |
    isProperty
  · exact own
  · exact types type isType inner inType
  · exact entries entry isEntry inner inEntry
  · exact functions inner isFunction
  · exact properties inner isProperty

end Declaration

open Declaration

private theorem yields_function :
    (Record.decoder (FunctionDecl.ofRecord declaration)).Yields fun decl =>
      (function decl).extras.clashAwareName = none := by
  refine Record.yields_decoder fun record decl read => ?_
  simp only [FunctionDecl.ofRecord, Option.bind_eq_bind, Option.bind_eq_some_iff, Option.pure_def,
    Option.some.injEq] at read
  obtain ⟨⟨own, shared⟩, -, common, isCommon, _, -, _, -, _, -, _, -, _, -, rfl⟩ := read
  exact clashAwareName_common isCommon

private theorem yields_property :
    (Record.decoder (PropertyDecl.ofRecord declaration)).Yields fun decl =>
      (property decl).extras.clashAwareName = none := by
  refine Record.yields_decoder fun record decl read => ?_
  simp only [PropertyDecl.ofRecord, Option.bind_eq_bind, Option.bind_eq_some_iff, Option.pure_def,
    Option.some.injEq] at read
  obtain ⟨⟨own, shared⟩, -, common, isCommon, _, -, _, -, _, -, _, -, rfl⟩ := read
  exact clashAwareName_common isCommon

private theorem yields_typeAlias :
    (Record.decoder (TypeAliasDecl.ofRecord declaration)).Yields fun decl =>
      (typeAlias decl).IsUnnamed := by
  refine Record.yields_decoder fun record decl read => ?_
  simp only [TypeAliasDecl.ofRecord, Option.bind_eq_bind, Option.bind_eq_some_iff, Option.pure_def,
    Option.some.injEq] at read
  obtain ⟨⟨own, shared⟩, -, common, isCommon, _, -, _, -, rfl⟩ := read
  intro inner member
  obtain rfl := List.mem_singleton.mp member
  exact clashAwareName_common isCommon

private theorem yields_enumEntry {classlike : Decoder ClasslikeDecl}
    (yields : classlike.Yields fun decl => (Declaration.classlike decl).IsUnnamed) :
    (Record.decoder (EnumEntryDecl.ofRecord declaration classlike)).Yields fun decl =>
      (enumEntry decl).IsUnnamed := by
  refine Record.yields_decoder fun record decl read => ?_
  simp only [EnumEntryDecl.ofRecord, Option.bind_eq_bind, Option.bind_eq_some_iff, Option.pure_def,
    Option.some.injEq] at read
  obtain ⟨⟨own, shared⟩, -, common, isCommon, functions, areFunctions, properties, areProperties,
    classlikes, areClasslikes, rfl⟩ := read
  refine .of_members (clashAwareName_common isCommon) ?_ (fun _ member => nomatch member) ?_ ?_
  · exact List.forall_mem_map.mpr (Record.forall_mem_of_defaulting yields areClasslikes)
  · exact List.forall_mem_map.mpr (Record.forall_mem_of_defaulting yields_function areFunctions)
  · exact List.forall_mem_map.mpr (Record.forall_mem_of_defaulting yields_property areProperties)

private theorem isUnnamed_classlike {classlike : Decoder ClasslikeDecl}
    (yields : classlike.Yields fun decl => (Declaration.classlike decl).IsUnnamed) {record : Record}
    {decl : ClasslikeDecl}
    (read : ClasslikeDecl.ofRecord declaration classlike record = some decl) :
    (Declaration.classlike decl).IsUnnamed := by
  simp only [ClasslikeDecl.ofRecord, Option.bind_eq_bind, Option.bind_eq_some_iff, Option.pure_def,
    Option.some.injEq] at read
  obtain ⟨⟨own, shared⟩, -, common, isCommon, _, -, _, -, _, -, functions, areFunctions, properties,
    areProperties, classlikes, areClasslikes, entries, areEntries, _, -, _, -, rfl⟩ := read
  refine .of_members (clashAwareName_common isCommon) ?_ ?_ ?_ ?_
  · exact List.forall_mem_map.mpr (Record.forall_mem_of_defaulting yields areClasslikes)
  · exact List.forall_mem_map.mpr
      (Record.forall_mem_of_defaulting (yields_enumEntry yields) areEntries)
  · exact List.forall_mem_map.mpr (Record.forall_mem_of_defaulting yields_function areFunctions)
  · exact List.forall_mem_map.mpr (Record.forall_mem_of_defaulting yields_property areProperties)

private theorem yields_classlike :
    (ClasslikeDecl.ofJson declaration).Yields fun decl =>
      (Declaration.classlike decl).IsUnnamed := by
  have within : ∀ bound, (ClasslikeDecl.ofJsonWithin declaration bound).Yields fun decl =>
      (Declaration.classlike decl).IsUnnamed := by
    intro bound
    induction bound with
    | zero => exact fun _ _ _ read => nomatch read
    | succ bound ih => exact Record.yields_decoder fun _ _ => isUnnamed_classlike ih
  exact fun kept json => within json.depth kept json

private theorem yields_package :
    (Record.decoder (PackageDecl.ofRecord declaration)).Yields fun decl =>
      (package decl).IsUnnamed := by
  refine Record.yields_decoder fun record decl read => ?_
  simp only [PackageDecl.ofRecord, Option.bind_eq_bind, Option.bind_eq_some_iff, Option.pure_def,
    Option.some.injEq] at read
  obtain ⟨⟨own, shared⟩, -, common, isCommon, classlikes, areClasslikes, typeAliases, areAliases,
    functions, areFunctions, properties, areProperties, rfl⟩ := read
  refine .of_members (clashAwareName_common isCommon) ?_ (fun _ member => nomatch member) ?_ ?_
  · refine List.forall_mem_append.mpr ⟨?_, ?_⟩
    · exact List.forall_mem_map.mpr (Record.forall_mem_of_defaulting yields_classlike areClasslikes)
    · exact List.forall_mem_map.mpr (Record.forall_mem_of_defaulting yields_typeAlias areAliases)
  · exact List.forall_mem_map.mpr (Record.forall_mem_of_defaulting yields_function areFunctions)
  · exact List.forall_mem_map.mpr (Record.forall_mem_of_defaulting yields_property areProperties)

/-- No declaration of a module that is read from a text has a clash-aware name. -/
theorem ModuleDecl.clashAwareName_eq_none_of_parse {origin text : String} {decl : ModuleDecl}
    (parsed : ModuleDecl.parse origin text = .ok decl) :
    ∀ declaration ∈ decl.declarations, declaration.extras.clashAwareName = none := by
  rw [parse] at parsed
  split at parsed
  · rename_i found read
    obtain rfl := Except.ok.inj parsed
    obtain ⟨json, -, isModule⟩ := Option.bind_eq_some_iff.mp read
    obtain ⟨record, -, read⟩ := Option.bind_eq_some_iff.mp isModule
    simp only [ModuleDecl.ofRecord, Option.bind_eq_bind, Option.bind_eq_some_iff, Option.pure_def,
      Option.some.injEq] at read
    obtain ⟨name, -, packages, arePackages, _, -, _, -, rfl⟩ := read
    intro declaration member
    obtain ⟨package, isPackage, inPackage⟩ := List.mem_flatMap.mp member
    exact Record.forall_mem_of_defaulting yields_package arePackages package isPackage declaration
      inPackage
  · cases parsed

end DocPages
