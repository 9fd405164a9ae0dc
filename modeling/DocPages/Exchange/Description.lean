import DocPages.Exchange.Extras

/-!
# Described declarations

The description of a declaration is the object of all its fields. It names the kind in words and
states the extra properties by key: unlike the form that is read it is made for readers.
-/

namespace DocPages

/-- The value of a parameter. -/
def Parameter.toJson (parameter : Parameter) : Json :=
  .ofMembers [("dri", parameter.dri.toJson), ("name", .ofText? parameter.name),
    ("type", parameter.type.toJson)]

/-- The value of a receiver, if there is one. -/
def Parameter.toJson? (parameter : Option Parameter) : Json :=
  .ofOption (parameter.map Parameter.toJson)

/-- The value of the visibilities per source set. -/
def Visibility.dependentToJson (visibility : Dependent Visibility) : Json :=
  visibility.toJson fun visibility => .ofString visibility.keyword

/-- The members of a description that every declaration below the module has. -/
def Common.toMembers (common : Common) : List (String × Json) :=
  [("dri", common.dri.toJson), ("name", .ofText? common.name),
    ("source_sets", SourceSets.toJson common.sourceSets),
    ("documentation", common.documentation.toJson Comment.toJson),
    ("extra", common.extras.toKeyedJson)]

namespace Declaration

/-- The description that starts with the kind of a declaration and its common part. -/
def described (declaration : Declaration) (fields : List (String × Json)) : Json :=
  .ofMembers <| ("documentable", .ofString declaration.kindName) ::
    ((declaration.common?.map Common.toMembers).getD [] ++ fields)

/-- The description of a function. -/
def describeFunction (decl : FunctionDecl) : Json :=
  (function decl).described
    [("is_constructor", .bool decl.isConstructor),
      ("parameters", .array (decl.parameters.map Parameter.toJson)),
      ("receiver", Parameter.toJson? decl.receiver),
      ("return_type", .ofOption (decl.returnType.map TypeUse.toJson)),
      ("visibility", Visibility.dependentToJson decl.visibility)]

/-- The description of a property. -/
def describeProperty (decl : PropertyDecl) : Json :=
  (property decl).described
    [("receiver", Parameter.toJson? decl.receiver), ("type", decl.type.toJson),
      ("is_var", .bool decl.isVar), ("visibility", Visibility.dependentToJson decl.visibility)]

/-- The description of a type alias. -/
def describeTypeAlias (decl : TypeAliasDecl) : Json :=
  (typeAlias decl).described
    [("underlying_type", decl.underlyingType.toJson TypeUse.toJson),
      ("visibility", Visibility.dependentToJson decl.visibility)]

mutual

/-- The description of a class-like declaration. -/
def describeClasslike : ClasslikeDecl → Json
  | ⟨common, kind, visibility, constructors, functions, properties, classlikes, entries,
    supertypes, expectPresentIn⟩ =>
    (classlike ⟨common, kind, visibility, constructors, functions, properties, classlikes,
      entries, supertypes, expectPresentIn⟩).described
      [("kind", .ofString kind.key), ("visibility", Visibility.dependentToJson visibility),
        ("constructors", .array (constructors.map describeFunction)),
        ("functions", .array (functions.map describeFunction)),
        ("properties", .array (properties.map describeProperty)),
        ("classlikes", .array (describeClasslikes classlikes)),
        ("entries", .array (describeEnumEntries entries)),
        ("supertypes", .array (supertypes.map TypeUse.toJson)),
        ("expect_present_in_set", .ofOption (expectPresentIn.map SourceSetId.toJson))]

/-- The description of an enum entry. -/
def describeEnumEntry : EnumEntryDecl → Json
  | ⟨common, functions, properties, classlikes⟩ =>
    (enumEntry ⟨common, functions, properties, classlikes⟩).described
      [("functions", .array (functions.map describeFunction)),
        ("properties", .array (properties.map describeProperty)),
        ("classlikes", .array (describeClasslikes classlikes))]

/-- The descriptions of class-like declarations. -/
def describeClasslikes : List ClasslikeDecl → List Json
  | [] => []
  | head :: tail => describeClasslike head :: describeClasslikes tail

/-- The descriptions of enum entries. -/
def describeEnumEntries : List EnumEntryDecl → List Json
  | [] => []
  | head :: tail => describeEnumEntry head :: describeEnumEntries tail

end

/-- The description of a package. -/
def describePackage (decl : PackageDecl) : Json :=
  (package decl).described
    [("classlikes", .array (describeClasslikes decl.classlikes)),
      ("typealiases", .array (decl.typeAliases.map describeTypeAlias)),
      ("functions", .array (decl.functions.map describeFunction)),
      ("properties", .array (decl.properties.map describeProperty))]

/-- The description of a module. -/
def describeModule (decl : ModuleDecl) : Json :=
  (module decl).described
    [("name", .ofString decl.name), ("packages", .array (decl.packages.map describePackage)),
      ("source_sets", .array (decl.sourceSets.map SourceSet.toJson)),
      ("documentation", decl.documentation.toJson Comment.toJson)]

/-- The description of a declaration. -/
def describe : Declaration → Json
  | .module decl => describeModule decl
  | .package decl => describePackage decl
  | .classlike decl => describeClasslike decl
  | .typeAlias decl => describeTypeAlias decl
  | .function decl => describeFunction decl
  | .property decl => describeProperty decl
  | .enumEntry decl => describeEnumEntry decl

end Declaration

end DocPages
