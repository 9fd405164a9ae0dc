import DocPages.Collection.Grouping
import DocPages.Declaration.Equality
import DocPages.Exchange.Comment
import DocPages.Exchange.SourceSet

/-!
# The exchange form of declarations

Modules as JSON values. The members of a declaration are its own fields and those that every
declaration has. The extra properties are a list, of which the last of a kind counts.

A declaration is read with a decoder for the declarations that its extra properties list, and a
class with a decoder for the classes nested in it. Both are the same decoder for values of less
depth.
-/

namespace DocPages

namespace TypeUse

/-- The use of a type that a value of at most the given depth states. -/
def ofJsonWithin : Nat → Decoder TypeUse
  | 0, _, _ => none
  | bound + 1, kept, json => do
    let record ← Record.ofJson? kept json
    return {
      dri := ← record.optional "dri" Dri.ofJson
      path := ← record.defaulting "path_segments" [] (.list .string)
      arguments := ← record.defaulting "arguments" [] (.list (ofJsonWithin bound))
      nullable := ← record.defaulting "nullable" false .bool
      function := ← record.optional "function" (Record.decoder fun form => do
        return { hasReceiver := ← form.defaulting "has_receiver" false .bool }) }

/-- The use of a type that a value states. -/
def ofJson : Decoder TypeUse :=
  fun kept json => ofJsonWithin json.depth kept json

mutual

/-- The value of a use of a type. -/
def toJson : TypeUse → Json
  | ⟨dri, path, arguments, nullable, function⟩ =>
    .ofMembers [("dri", .ofOption (dri.map Dri.toJson)),
      ("path_segments", .array (path.map .ofString)),
      ("arguments", .array (toJsonList arguments)), ("nullable", .bool nullable),
      ("function", .ofOption (function.map fun form =>
        .ofMembers [("has_receiver", .bool form.hasReceiver)]))]

/-- The values of a list of uses of types. -/
def toJsonList : List TypeUse → List Json
  | [] => []
  | head :: tail => head.toJson :: toJsonList tail

end

end TypeUse

/-- The parameter that a value states. -/
def Parameter.ofJson : Decoder Parameter :=
  Record.decoder fun record => do
    return {
      dri := ← record.required "dri" Dri.ofJson
      name := ← record.optional "name" .string
      type := ← record.required "type" TypeUse.ofJson }

/-- The entries with the last value of every key, in ascending order of the keys. -/
def dictionary (entries : List (String × String)) : List (String × String) :=
  sortBy (compareOn Prod.fst) (distinctBy Prod.fst entries.reverse)

/-- The application of an annotation that a value states. -/
def AnnotationUse.ofJson : Decoder AnnotationUse :=
  Record.decoder fun record => do
    return {
      dri := ← record.required "dri" Dri.ofJson
      params := dictionary (← record.defaulting "params" [] (.entries .string)) }

/-- The visibilities that a value states per source set. -/
def Visibility.decoder : Decoder (Dependent Visibility) :=
  .dependent (.constant Visibility.all Visibility.keyword)

namespace Extras

/-- Extra properties with the one that a value of a list adds. -/
def addJson (declaration : Decoder Declaration) (extras : Extras Declaration) (kept : Bool)
    (json : Json) : Option (Extras Declaration) := do
  let (variant, record) ← Record.tagged? "kind" ["clashing_dri_identifier", "inherited_member",
    "additional_modifiers", "annotations", "callable_extensions"] kept json
  match variant with
  | "clashing_dri_identifier" =>
    let markers ← record.required "markers" (.list .string)
    return { extras with clashMarkers := some (distinctBy id markers) }
  | "inherited_member" =>
    let inherited ← record.required "inherited_from" (.dependent (.nullable Dri.ofJson))
    return { extras with inheritedMember := some inherited }
  | "additional_modifiers" =>
    let modifiers ← record.required "modifiers"
      (.dependent (.set (.constant Modifier.all Modifier.keyword)))
    return { extras with additionalModifiers := some modifiers }
  | "annotations" =>
    let annotations ← record.required "annotations" (.list AnnotationUse.ofJson)
    return { extras with annotations := some annotations }
  | _ =>
    let extensions ← record.required "extensions" (.list declaration)
    return { extras with callableExtensions := some extensions }

/-- The extra properties that a list states. -/
def ofJson (declaration : Decoder Declaration) : Decoder (Extras Declaration)
  | kept, .array items =>
    items.foldlM (fun extras item => extras.addJson declaration kept item) .empty
  | _, _ => none

end Extras

/-- The common part of the declaration that a record states. -/
def Common.ofRecord (declaration : Decoder Declaration) (record : Record) : Option Common := do
  return {
    dri := ← record.required "dri" Dri.ofJson
    name := ← record.optional "name" .string
    sourceSets := ← record.defaulting "source_sets" {} (.set SourceSetId.ofJson)
    documentation := ← record.defaulting "documentation" {} (.dependent Comment.ofJson)
    extras := ← record.defaulting "extra" .empty (Extras.ofJson declaration) }

/-- The function that a record states. -/
def FunctionDecl.ofRecord (declaration : Decoder Declaration) (record : Record) :
    Option FunctionDecl := do
  let (own, shared) ← record.sharing?
    ["is_constructor", "parameters", "receiver", "return_type", "visibility"]
  return {
    common := ← Common.ofRecord declaration shared
    isConstructor := ← own.defaulting "is_constructor" false .bool
    parameters := ← own.defaulting "parameters" [] (.list Parameter.ofJson)
    receiver := ← own.optional "receiver" Parameter.ofJson
    returnType := ← own.optional "return_type" TypeUse.ofJson
    visibility := ← own.defaulting "visibility" {} Visibility.decoder }

/-- The property that a record states. -/
def PropertyDecl.ofRecord (declaration : Decoder Declaration) (record : Record) :
    Option PropertyDecl := do
  let (own, shared) ← record.sharing? ["receiver", "type", "is_var", "visibility"]
  return {
    common := ← Common.ofRecord declaration shared
    receiver := ← own.optional "receiver" Parameter.ofJson
    type := ← own.required "type" TypeUse.ofJson
    isVar := ← own.defaulting "is_var" false .bool
    visibility := ← own.defaulting "visibility" {} Visibility.decoder }

/-- The type alias that a record states. -/
def TypeAliasDecl.ofRecord (declaration : Decoder Declaration) (record : Record) :
    Option TypeAliasDecl := do
  let (own, shared) ← record.sharing? ["underlying_type", "visibility"]
  return {
    common := ← Common.ofRecord declaration shared
    underlyingType := ← own.defaulting "underlying_type" {} (.dependent TypeUse.ofJson)
    visibility := ← own.defaulting "visibility" {} Visibility.decoder }

/-- The enum entry that a record states. -/
def EnumEntryDecl.ofRecord (declaration : Decoder Declaration) (classlike : Decoder ClasslikeDecl)
    (record : Record) : Option EnumEntryDecl := do
  let (own, shared) ← record.sharing? ["functions", "properties", "classlikes"]
  return {
    common := ← Common.ofRecord declaration shared
    functions := ← own.defaulting "functions" []
      (.list (Record.decoder (FunctionDecl.ofRecord declaration)))
    properties := ← own.defaulting "properties" []
      (.list (Record.decoder (PropertyDecl.ofRecord declaration)))
    classlikes := ← own.defaulting "classlikes" [] (.list classlike) }

namespace ClasslikeDecl

/-- The class-like declaration that a record states. -/
def ofRecord (declaration : Decoder Declaration) (classlike : Decoder ClasslikeDecl)
    (record : Record) : Option ClasslikeDecl := do
  let (own, shared) ← record.sharing?
    ["kind", "visibility", "constructors", "functions", "properties", "classlikes", "entries",
      "supertypes", "expect_present_in_set"]
  let functions := Decoder.list (Record.decoder (FunctionDecl.ofRecord declaration))
  return {
    common := ← Common.ofRecord declaration shared
    kind := ← own.defaulting "kind" .classKind (.constant ClasslikeKind.all ClasslikeKind.key)
    visibility := ← own.defaulting "visibility" {} Visibility.decoder
    constructors := ← own.defaulting "constructors" [] functions
    functions := ← own.defaulting "functions" [] functions
    properties := ← own.defaulting "properties" []
      (.list (Record.decoder (PropertyDecl.ofRecord declaration)))
    classlikes := ← own.defaulting "classlikes" [] (.list classlike)
    entries := ← own.defaulting "entries" []
      (.list (Record.decoder (EnumEntryDecl.ofRecord declaration classlike)))
    supertypes := ← own.defaulting "supertypes" [] (.list TypeUse.ofJson)
    expectPresentIn := ← own.optional "expect_present_in_set" SourceSetId.ofJson }

/-- The class-like declaration that a value of at most the given depth states. -/
def ofJsonWithin (declaration : Decoder Declaration) : Nat → Decoder ClasslikeDecl
  | 0, _, _ => none
  | bound + 1, kept, json =>
    Record.decoder (ofRecord declaration (ofJsonWithin declaration bound)) kept json

/-- The class-like declaration that a value states. -/
def ofJson (declaration : Decoder Declaration) : Decoder ClasslikeDecl :=
  fun kept json => ofJsonWithin declaration json.depth kept json

end ClasslikeDecl

/-- The package that a record states. -/
def PackageDecl.ofRecord (declaration : Decoder Declaration) (record : Record) :
    Option PackageDecl := do
  let (own, shared) ← record.sharing? ["classlikes", "typealiases", "functions", "properties"]
  return {
    common := ← Common.ofRecord declaration shared
    classlikes := ← own.defaulting "classlikes" [] (.list (ClasslikeDecl.ofJson declaration))
    typeAliases := ← own.defaulting "typealiases" []
      (.list (Record.decoder (TypeAliasDecl.ofRecord declaration)))
    functions := ← own.defaulting "functions" []
      (.list (Record.decoder (FunctionDecl.ofRecord declaration)))
    properties := ← own.defaulting "properties" []
      (.list (Record.decoder (PropertyDecl.ofRecord declaration))) }

/-- The module that a record states. -/
def ModuleDecl.ofRecord (declaration : Decoder Declaration) (record : Record) :
    Option ModuleDecl := do
  return {
    name := ← record.required "name" .string
    packages := ← record.defaulting "packages" []
      (.list (Record.decoder (PackageDecl.ofRecord declaration)))
    sourceSets := ← record.defaulting "source_sets" [] (.list SourceSet.ofJson)
    documentation := ← record.defaulting "documentation" {} (.dependent Comment.ofJson) }

namespace Declaration

/-- The declaration that a value of at most the given depth states. -/
def ofJsonWithin : Nat → Decoder Declaration
  | 0, _, _ => none
  | bound + 1, kept, json => do
    let declaration := ofJsonWithin bound
    let (variant, record) ← Record.tagged? "documentable"
      ["module", "package", "classlike", "type_alias", "function", "property", "enum_entry"]
      kept json
    match variant with
    | "module" => (ModuleDecl.ofRecord declaration record).map .module
    | "package" => (PackageDecl.ofRecord declaration record).map .package
    | "classlike" =>
      (ClasslikeDecl.ofRecord declaration (ClasslikeDecl.ofJson declaration) record).map .classlike
    | "type_alias" => (TypeAliasDecl.ofRecord declaration record).map .typeAlias
    | "function" => (FunctionDecl.ofRecord declaration record).map .function
    | "property" => (PropertyDecl.ofRecord declaration record).map .property
    | _ =>
      (EnumEntryDecl.ofRecord declaration (ClasslikeDecl.ofJson declaration) record).map .enumEntry

/-- The declaration that a value states. -/
def ofJson : Decoder Declaration :=
  fun kept json => ofJsonWithin json.depth kept json

end Declaration

/-- The package that a value states. -/
def PackageDecl.ofJson : Decoder PackageDecl :=
  Record.decoder (PackageDecl.ofRecord Declaration.ofJson)

/-- The module that a value states. -/
def ModuleDecl.ofJson : Decoder ModuleDecl :=
  Record.decoder (ModuleDecl.ofRecord Declaration.ofJson)

end DocPages
