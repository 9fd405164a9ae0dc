import DocPages.Declaration.Basic

/-!
# Equality of declarations

Equality of declarations is decided by structural comparison, through the extensions listed among
the extra properties of a class as well.
-/

namespace DocPages

namespace Declaration

mutual

def beqCommon : Common → Common → Bool
  | ⟨dri, name, sourceSets, documentation, extras⟩,
    ⟨dri', name', sourceSets', documentation', extras'⟩ =>
    dri == dri' && name == name' && sourceSets == sourceSets' &&
      documentation == documentation' && beqExtras extras extras'

def beqFunction : FunctionDecl → FunctionDecl → Bool
  | ⟨common, isConstructor, parameters, receiver, returnType, visibility⟩,
    ⟨common', isConstructor', parameters', receiver', returnType', visibility'⟩ =>
    beqCommon common common' && isConstructor == isConstructor' && parameters == parameters' &&
      receiver == receiver' && returnType == returnType' && visibility == visibility'

def beqProperty : PropertyDecl → PropertyDecl → Bool
  | ⟨common, receiver, type, isVar, visibility⟩,
    ⟨common', receiver', type', isVar', visibility'⟩ =>
    beqCommon common common' && receiver == receiver' && type == type' && isVar == isVar' &&
      visibility == visibility'

def beqTypeAlias : TypeAliasDecl → TypeAliasDecl → Bool
  | ⟨common, underlyingType, visibility⟩, ⟨common', underlyingType', visibility'⟩ =>
    beqCommon common common' && underlyingType == underlyingType' && visibility == visibility'

def beqEnumEntry : EnumEntryDecl → EnumEntryDecl → Bool
  | ⟨common, functions, properties, classlikes⟩, ⟨common', functions', properties', classlikes'⟩ =>
    beqCommon common common' && beqFunctions functions functions' &&
      beqProperties properties properties' && beqClasslikes classlikes classlikes'

def beqClasslike : ClasslikeDecl → ClasslikeDecl → Bool
  | ⟨common, kind, visibility, constructors, functions, properties, classlikes, entries,
    supertypes, expectPresentIn⟩,
    ⟨common', kind', visibility', constructors', functions', properties', classlikes',
    entries', supertypes', expectPresentIn'⟩ =>
    beqCommon common common' && kind == kind' && visibility == visibility' &&
      beqFunctions constructors constructors' && beqFunctions functions functions' &&
      beqProperties properties properties' && beqClasslikes classlikes classlikes' &&
      beqEnumEntries entries entries' && supertypes == supertypes' &&
      expectPresentIn == expectPresentIn'

def beqPackage : PackageDecl → PackageDecl → Bool
  | ⟨common, classlikes, typeAliases, functions, properties⟩,
    ⟨common', classlikes', typeAliases', functions', properties'⟩ =>
    beqCommon common common' && beqClasslikes classlikes classlikes' &&
      beqTypeAliases typeAliases typeAliases' && beqFunctions functions functions' &&
      beqProperties properties properties'

def beqModule : ModuleDecl → ModuleDecl → Bool
  | ⟨name, packages, sourceSets, documentation⟩, ⟨name', packages', sourceSets', documentation'⟩ =>
    name == name' && beqPackages packages packages' && sourceSets == sourceSets' &&
      documentation == documentation'

def beqExtras : Extras Declaration → Extras Declaration → Bool
  | ⟨additionalModifiers, annotations, callableExtensions, clashMarkers, clashAwareName,
    inheritedMember, symbolAnchor, tab, volatile⟩,
    ⟨additionalModifiers', annotations', callableExtensions', clashMarkers',
    clashAwareName', inheritedMember', symbolAnchor', tab', volatile'⟩ =>
    additionalModifiers == additionalModifiers' && annotations == annotations' &&
      beqListing callableExtensions callableExtensions' && clashMarkers == clashMarkers' &&
      clashAwareName == clashAwareName' && inheritedMember == inheritedMember' &&
      symbolAnchor == symbolAnchor' && tab == tab' && volatile == volatile'

/-- Equality of lists of declarations that may be absent. -/
def beqListing : Option (List Declaration) → Option (List Declaration) → Bool
  | some left, some right => beqDeclarations left right
  | none, none => true
  | _, _ => false

/-- Equality of lists of functions. -/
def beqFunctions : List FunctionDecl → List FunctionDecl → Bool
  | [], [] => true
  | head :: tail, head' :: tail' => beqFunction head head' && beqFunctions tail tail'
  | _, _ => false

/-- Equality of lists of properties. -/
def beqProperties : List PropertyDecl → List PropertyDecl → Bool
  | [], [] => true
  | head :: tail, head' :: tail' => beqProperty head head' && beqProperties tail tail'
  | _, _ => false

/-- Equality of lists of type aliases. -/
def beqTypeAliases : List TypeAliasDecl → List TypeAliasDecl → Bool
  | [], [] => true
  | head :: tail, head' :: tail' => beqTypeAlias head head' && beqTypeAliases tail tail'
  | _, _ => false

/-- Equality of lists of enum entries. -/
def beqEnumEntries : List EnumEntryDecl → List EnumEntryDecl → Bool
  | [], [] => true
  | head :: tail, head' :: tail' => beqEnumEntry head head' && beqEnumEntries tail tail'
  | _, _ => false

/-- Equality of lists of class-like declarations. -/
def beqClasslikes : List ClasslikeDecl → List ClasslikeDecl → Bool
  | [], [] => true
  | head :: tail, head' :: tail' => beqClasslike head head' && beqClasslikes tail tail'
  | _, _ => false

/-- Equality of lists of packages. -/
def beqPackages : List PackageDecl → List PackageDecl → Bool
  | [], [] => true
  | head :: tail, head' :: tail' => beqPackage head head' && beqPackages tail tail'
  | _, _ => false

/-- Equality of lists of declarations. -/
def beqDeclarations : List Declaration → List Declaration → Bool
  | [], [] => true
  | head :: tail, head' :: tail' => beq head head' && beqDeclarations tail tail'
  | _, _ => false

def beq : Declaration → Declaration → Bool
  | .module left, .module right => beqModule left right
  | .package left, .package right => beqPackage left right
  | .classlike left, .classlike right => beqClasslike left right
  | .typeAlias left, .typeAlias right => beqTypeAlias left right
  | .function left, .function right => beqFunction left right
  | .property left, .property right => beqProperty left right
  | .enumEntry left, .enumEntry right => beqEnumEntry left right
  | _, _ => false

end

mutual

theorem beqCommon_iff :
    (left right : Common) → (beqCommon left right = true ↔ left = right)
  | ⟨_, _, _, _, extras⟩, ⟨_, _, _, _, _⟩ => by
    simp [beqCommon, beqExtras_iff extras, and_assoc]

theorem beqFunction_iff :
    (left right : FunctionDecl) → (beqFunction left right = true ↔ left = right)
  | ⟨common, _, _, _, _, _⟩, ⟨_, _, _, _, _, _⟩ => by
    simp [beqFunction, beqCommon_iff common, and_assoc]

theorem beqProperty_iff :
    (left right : PropertyDecl) → (beqProperty left right = true ↔ left = right)
  | ⟨common, _, _, _, _⟩, ⟨_, _, _, _, _⟩ => by
    simp [beqProperty, beqCommon_iff common, and_assoc]

theorem beqTypeAlias_iff :
    (left right : TypeAliasDecl) → (beqTypeAlias left right = true ↔ left = right)
  | ⟨common, _, _⟩, ⟨_, _, _⟩ => by
    simp [beqTypeAlias, beqCommon_iff common, and_assoc]

theorem beqEnumEntry_iff :
    (left right : EnumEntryDecl) → (beqEnumEntry left right = true ↔ left = right)
  | ⟨common, functions, properties, classlikes⟩, ⟨_, _, _, _⟩ => by
    simp [beqEnumEntry, beqCommon_iff common, beqFunctions_iff functions,
      beqProperties_iff properties, beqClasslikes_iff classlikes, and_assoc]

theorem beqClasslike_iff :
    (left right : ClasslikeDecl) → (beqClasslike left right = true ↔ left = right)
  | ⟨common, _, _, constructors, functions, properties, classlikes, entries, _, _⟩,
    ⟨_, _, _, _, _, _, _, _, _, _⟩ => by
    simp [beqClasslike, beqCommon_iff common, beqFunctions_iff constructors,
      beqFunctions_iff functions, beqProperties_iff properties, beqClasslikes_iff classlikes,
      beqEnumEntries_iff entries, and_assoc]

theorem beqPackage_iff :
    (left right : PackageDecl) → (beqPackage left right = true ↔ left = right)
  | ⟨common, classlikes, typeAliases, functions, properties⟩, ⟨_, _, _, _, _⟩ => by
    simp [beqPackage, beqCommon_iff common, beqClasslikes_iff classlikes,
      beqTypeAliases_iff typeAliases, beqFunctions_iff functions, beqProperties_iff properties,
      and_assoc]

theorem beqModule_iff :
    (left right : ModuleDecl) → (beqModule left right = true ↔ left = right)
  | ⟨_, packages, _, _⟩, ⟨_, _, _, _⟩ => by
    simp [beqModule, beqPackages_iff packages, and_assoc]

theorem beqExtras_iff :
    (left right : Extras Declaration) → (beqExtras left right = true ↔ left = right)
  | ⟨_, _, callableExtensions, _, _, _, _, _, _⟩, ⟨_, _, _, _, _, _, _, _, _⟩ => by
    simp [beqExtras, beqListing_iff callableExtensions, and_assoc]

theorem beqListing_iff :
    (left right : Option (List Declaration)) → (beqListing left right = true ↔ left = right)
  | none, right => by cases right <;> simp [beqListing]
  | some left, right => by cases right <;> simp [beqListing, beqDeclarations_iff left]

theorem beqFunctions_iff :
    (left right : List FunctionDecl) → (beqFunctions left right = true ↔ left = right)
  | [], right => by cases right <;> simp [beqFunctions]
  | head :: tail, right => by
    cases right <;> simp [beqFunctions, beqFunction_iff head, beqFunctions_iff tail]

theorem beqProperties_iff :
    (left right : List PropertyDecl) → (beqProperties left right = true ↔ left = right)
  | [], right => by cases right <;> simp [beqProperties]
  | head :: tail, right => by
    cases right <;> simp [beqProperties, beqProperty_iff head, beqProperties_iff tail]

theorem beqTypeAliases_iff :
    (left right : List TypeAliasDecl) → (beqTypeAliases left right = true ↔ left = right)
  | [], right => by cases right <;> simp [beqTypeAliases]
  | head :: tail, right => by
    cases right <;> simp [beqTypeAliases, beqTypeAlias_iff head, beqTypeAliases_iff tail]

theorem beqEnumEntries_iff :
    (left right : List EnumEntryDecl) → (beqEnumEntries left right = true ↔ left = right)
  | [], right => by cases right <;> simp [beqEnumEntries]
  | head :: tail, right => by
    cases right <;> simp [beqEnumEntries, beqEnumEntry_iff head, beqEnumEntries_iff tail]

theorem beqClasslikes_iff :
    (left right : List ClasslikeDecl) → (beqClasslikes left right = true ↔ left = right)
  | [], right => by cases right <;> simp [beqClasslikes]
  | head :: tail, right => by
    cases right <;> simp [beqClasslikes, beqClasslike_iff head, beqClasslikes_iff tail]

theorem beqPackages_iff :
    (left right : List PackageDecl) → (beqPackages left right = true ↔ left = right)
  | [], right => by cases right <;> simp [beqPackages]
  | head :: tail, right => by
    cases right <;> simp [beqPackages, beqPackage_iff head, beqPackages_iff tail]

theorem beqDeclarations_iff :
    (left right : List Declaration) → (beqDeclarations left right = true ↔ left = right)
  | [], right => by cases right <;> simp [beqDeclarations]
  | head :: tail, right => by
    cases right <;> simp [beqDeclarations, beq_iff head, beqDeclarations_iff tail]

theorem beq_iff : (left right : Declaration) → (beq left right = true ↔ left = right)
  | .module decl, right => by cases right <;> simp [beq, beqModule_iff decl]
  | .package decl, right => by cases right <;> simp [beq, beqPackage_iff decl]
  | .classlike decl, right => by cases right <;> simp [beq, beqClasslike_iff decl]
  | .typeAlias decl, right => by cases right <;> simp [beq, beqTypeAlias_iff decl]
  | .function decl, right => by cases right <;> simp [beq, beqFunction_iff decl]
  | .property decl, right => by cases right <;> simp [beq, beqProperty_iff decl]
  | .enumEntry decl, right => by cases right <;> simp [beq, beqEnumEntry_iff decl]

end

instance : DecidableEq Declaration := fun left right =>
  decidable_of_decidable_of_iff (beq_iff left right)

end Declaration

end DocPages
