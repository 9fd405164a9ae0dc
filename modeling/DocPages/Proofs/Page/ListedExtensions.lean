import DocPages.Proofs.Page.Contents
import DocPages.Proofs.Page.ListedMembers

/-!
# Extensions that pages list

The page of a group of types drops repetitions from the extensions of its classes before it sorts
them into functions and properties, and a repetition is told by its identity and source sets alone.
Of a function and a property that agree in both, only the one that comes first is listed. Members of
the types are sorted first, so that they lose nothing in this way.
-/

namespace DocPages

open Content Declaration Build

/-- One of the two sections lists a variant with the identity and the source sets of the
declaration. -/
def Content.Node.ListsVariantOf (content : Content.Node) (title inheritedTitle : String)
    (declaration : Declaration) : Prop :=
  ∃ entry, (entry ∈ content.listedUnder title ∨ entry ∈ content.listedUnder inheritedTitle) ∧
    entry.dris = .singleton declaration.dri ∧ entry.sourceSets = declaration.sourceSets

namespace Declaration

/-- All extensions of the classes of a group in order. -/
def allExtensions (group : List Declaration) : List Declaration :=
  (group.filter isClasslike).flatMap ownExtensions

/-- The members of the types of a group. -/
def membersOf (group : List Declaration) : Members :=
  .ofDeclarations (group.filter fun type => type.isClasslike || type.isEnumEntry)

/-- The first of the extensions of a group that has the identity and the source sets of an
extension. -/
def firstVariant? (group : List Declaration) (extension : Declaration) : Option Declaration :=
  (allExtensions group).find? fun other => other.variantKey = extension.variantKey

variable {group : List Declaration} {extension : Declaration}

theorem exists_firstVariant (member : extension ∈ allExtensions group) :
    ∃ first, firstVariant? group extension = some first ∧ first ∈ listedExtensions group ∧
      first.variantKey = extension.variantKey := by
  obtain ⟨first, listed, sameKey⟩ :
      ∃ first ∈ listedExtensions group, first.variantKey = extension.variantKey :=
    exists_mem_distinctBy member
  refine ⟨first, ?_, listed, sameKey⟩
  rw [firstVariant?, ← sameKey]
  exact mem_distinctBy_iff.mp listed

end Declaration

namespace PageMaker

variable {maker : PageMaker} {group : List Declaration} {session : Session} {content : Node}

/-- Content that can be made is for extensions that pass the check. -/
private theorem checkedExtensions_eq_ok
    (made : ((maker.content (.classlikes group)).run.run session).1 = .ok content) :
    checkedExtensions group = .ok (listedExtensions group) := by
  cases checked : checkedExtensions group with
  | error failure =>
      rw [PageMaker.content, checked] at made
      cases made
  | ok found => rw [eq_listedExtensions_of_checked checked]

/-- Two sections that list members and the extensions that pass a test list a variant of an
extension if it is that of a member or if the first such extension passes the test. -/
private theorem listsVariantOf_iff {title inheritedTitle : String} {test : Declaration → Bool}
    {members : List Declaration}
    (lists : ∀ entry, entry ∈ content.listedUnder title ∨
      entry ∈ content.listedUnder inheritedTitle ↔
        ∃ declaration ∈ members ++ (listedExtensions group).filter test,
          declaration.listedVariant = entry) (extension : Declaration) :
    content.ListsVariantOf title inheritedTitle extension ↔
      (∃ member ∈ members, member.variantKey = extension.variantKey) ∨
        (firstVariant? group extension).any test := by
  rw [firstVariant?, ← exists_mem_filter_distinctBy_iff]
  change _ ↔ _ ∨ ∃ first ∈ (listedExtensions group).filter test, _
  simp only [Node.ListsVariantOf, lists, ← exists_or, ← or_and_right, ← List.mem_append]
  have sameKey : ∀ declaration : Declaration,
      declaration.variantKey = extension.variantKey ↔
        declaration.listedVariant.dris = .singleton extension.dri ∧
          declaration.listedVariant.sourceSets = extension.sourceSets := by
    intro declaration
    simp [variantKey, listedVariant, OrderedSet.singleton]
  constructor
  · rintro ⟨_, ⟨declaration, isListed, rfl⟩, agrees⟩
    exact ⟨declaration, isListed, (sameKey declaration).mpr agrees⟩
  · rintro ⟨declaration, isListed, agrees⟩
    exact ⟨_, ⟨declaration, isListed, rfl⟩, (sameKey declaration).mp agrees⟩

/-- The page of a group of types lists every extension of its classes under one of the titles: as a
function if the first extension with its identity and source sets is a function, or if a function
among the members of the types has them, and likewise as a property. Every extension is therefore
listed as what it is unless another of the other kind agrees with it in both. -/
theorem listsVariantOf_of_content
    (made : ((maker.content (.classlikes group)).run.run session).1 = .ok content)
    {extension : Declaration} (member : extension ∈ allExtensions group) :
    let asFunction := content.ListsVariantOf "Functions" "Inherited functions" extension
    let asProperty := content.ListsVariantOf "Properties" "Inherited properties" extension
    (asFunction ↔
      (∃ function ∈ (membersOf group).functions, function.variantKey = extension.variantKey) ∨
        (firstVariant? group extension).any isFunction) ∧
    (asProperty ↔
      (∃ property ∈ (membersOf group).properties, property.variantKey = extension.variantKey) ∨
        (firstVariant? group extension).any isProperty) ∧
    (asFunction ∨ asProperty) ∧
    ((∀ other ∈ allExtensions group, other.variantKey = extension.variantKey →
        other.isFunction = extension.isFunction ∧ other.isProperty = extension.isProperty) →
      (extension.isFunction → asFunction) ∧ (extension.isProperty → asProperty)) := by
  intro asFunction asProperty
  have lists := (maker.ensures_listsMembers (.classlikes group) session trivial).1 content made
    (.inr rfl)
  have functions : asFunction ↔ _ := listsVariantOf_iff lists.functions extension
  have properties : asProperty ↔ _ := listsVariantOf_iff lists.properties extension
  obtain ⟨first, found, isListed, sameKey⟩ := exists_firstVariant member
  have foundAs : ∀ test : Declaration → Bool,
      (firstVariant? group extension).any test ↔ test first := fun test => by
    rw [found, Option.any_some]
  refine ⟨functions, properties, ?_, fun alike => ?_⟩
  · obtain isProperty | isFunction := isProperty_or_isFunction_of_checkedExtensions
        (checkedExtensions_eq_ok made) isListed
    · exact .inr (properties.mpr (.inr ((foundAs _).mpr isProperty)))
    · exact .inl (functions.mpr (.inr ((foundAs _).mpr isFunction)))
  · obtain ⟨sameFunction, sameProperty⟩ :=
      alike first (mem_of_mem_distinctBy isListed) sameKey
    refine ⟨fun isFunction => functions.mpr (.inr ((foundAs _).mpr ?_)),
      fun isProperty => properties.mpr (.inr ((foundAs _).mpr ?_))⟩
    · exact sameFunction.trans isFunction
    · exact sameProperty.trans isProperty

/-- What a function and a property of the class `Box` have in common if both are called `size`. -/
def sizeOfBox : Common where
  dri := { packageName := "shapes", callable := some { name := "size" } }
  name := "size"
  sourceSets := .singleton ⟨"shapes", "jvm"⟩

/-- A function that extends the class `Box`. -/
def sizeFunction : Declaration :=
  .function
    { common := sizeOfBox
      receiver := some { dri := {}, type := .resolved (.ofClass "shapes" "Box") "shapes.Box" } }

/-- A property that extends the class `Box` and has the identity of the function. -/
def sizeProperty : Declaration :=
  .property
    { common := sizeOfBox
      receiver := some { dri := {}, type := .resolved (.ofClass "shapes" "Box") "shapes.Box" }
      type := .unresolved "Int" }

/-- The class `Box` with the extensions, first the function and then the property. -/
def sizedBox : Declaration :=
  .classlike
    { common :=
        { dri := .ofClass "shapes" "Box"
          name := "Box"
          sourceSets := .singleton ⟨"shapes", "jvm"⟩
          extras := { callableExtensions := some [sizeFunction, sizeProperty] } } }

/-- A maker of pages that lists inherited members and extensions of other types apart. -/
def separating : PageMaker where
  settings := { separateInherited := true }
  registry := .ofList []

private theorem exists_content_sizedBox :
    ∃ content, ((separating.content (.classlikes [sizedBox])).run.run {}).1 = .ok content := by
  have succeeds :
      (((separating.content (.classlikes [sizedBox])).run.run {}).1.toOption).isSome := by
    decide +kernel
  cases run : ((separating.content (.classlikes [sizedBox])).run.run {}).1 with
  | error failure =>
      rw [run] at succeeds
      cases succeeds
  | ok content => exact ⟨content, rfl⟩

/-- The function is listed, as it comes first. -/
theorem listsVariantOf_of_content_sizedBox :
    sizeFunction ∈ allExtensions [sizedBox] ∧
      ∃ content, ((separating.content (.classlikes [sizedBox])).run.run {}).1 = .ok content ∧
        content.ListsVariantOf "Functions" "Inherited functions" sizeFunction := by
  have member : sizeFunction ∈ allExtensions [sizedBox] := List.mem_cons_self
  obtain ⟨content, made⟩ := exists_content_sizedBox
  obtain ⟨functions, -⟩ := listsVariantOf_of_content made member
  exact ⟨member, content, made, functions.mpr (.inr (by decide +kernel))⟩

/-- The property is an extension of a class of the group, and neither section for properties lists a
variant of it. -/
theorem exists_extension_not_listed :
    sizeProperty ∈ sizedBox.ownExtensions ∧ sizeProperty.isProperty ∧
      ∃ content, ((separating.content (.classlikes [sizedBox])).run.run {}).1 = .ok content ∧
        ¬content.ListsVariantOf "Properties" "Inherited properties" sizeProperty := by
  obtain ⟨content, made⟩ := exists_content_sizedBox
  have lists := (separating.ensures_listsMembers (.classlikes [sizedBox]) {} trivial).1 content made
    (.inr rfl)
  have noProperty : (Subject.classlikes [sizedBox]).listedProperties = [] := by decide +kernel
  refine ⟨List.mem_cons_of_mem _ List.mem_cons_self, rfl, content, made, ?_⟩
  rintro ⟨entry, isListed, -⟩
  obtain ⟨property, member, -⟩ := (lists.properties entry).mp isListed
  exact List.not_mem_nil (noProperty ▸ member)

end PageMaker

end DocPages
