import DocPages.Collection.Elementwise
import DocPages.Declaration.Members

/-!
# Nested declarations

Everything that is declared in a package, class or enum entry at any depth, and the depth that
bounds it. A clash-aware name is the only thing that renaming changes, so it changes neither.
-/

namespace DocPages

namespace Declaration

/-! ## Renamed declarations -/

/-- The declaration without a name that tells it apart from those with a clashing identity. -/
def unrenamed (declaration : Declaration) : Declaration :=
  declaration.mapCommon fun common =>
    { common with extras := common.extras.without .clashAwareName }

@[simp]
theorem unrenamed_withClashAwareName (name : String) (declaration : Declaration) :
    (declaration.withClashAwareName name).unrenamed = declaration.unrenamed := by
  cases declaration <;> rfl

@[simp]
theorem unrenamed_unrenamed (declaration : Declaration) :
    declaration.unrenamed.unrenamed = declaration.unrenamed := by
  cases declaration <;> rfl

@[simp]
theorem dri_unrenamed (declaration : Declaration) :
    declaration.unrenamed.dri = declaration.dri := by
  cases declaration <;> rfl

@[simp]
theorem memberTypes_unrenamed (declaration : Declaration) :
    declaration.unrenamed.memberTypes = declaration.memberTypes := by
  cases declaration <;> rfl

@[simp]
theorem memberFunctions_unrenamed (declaration : Declaration) :
    declaration.unrenamed.memberFunctions = declaration.memberFunctions := by
  cases declaration <;> rfl

@[simp]
theorem memberProperties_unrenamed (declaration : Declaration) :
    declaration.unrenamed.memberProperties = declaration.memberProperties := by
  cases declaration <;> rfl

@[simp]
theorem enumEntries_unrenamed (declaration : Declaration) :
    declaration.unrenamed.enumEntries = declaration.enumEntries := by
  cases declaration <;> rfl

@[simp]
theorem listedEntries_unrenamed (declaration : Declaration) :
    declaration.unrenamed.listedEntries = declaration.listedEntries := by
  cases declaration <;> rfl

@[simp]
theorem isClasslike_unrenamed (declaration : Declaration) :
    declaration.unrenamed.isClasslike = declaration.isClasslike := by
  cases declaration <;> rfl

@[simp]
theorem isTypeAlias_unrenamed (declaration : Declaration) :
    declaration.unrenamed.isTypeAlias = declaration.isTypeAlias := by
  cases declaration <;> rfl

@[simp]
theorem isEnumEntry_unrenamed (declaration : Declaration) :
    declaration.unrenamed.isEnumEntry = declaration.isEnumEntry := by
  cases declaration <;> rfl

@[simp]
theorem nesting_unrenamed (declaration : Declaration) :
    declaration.unrenamed.nesting = declaration.nesting := by
  cases declaration with
  | classlike decl | enumEntry decl =>
      cases decl
      rfl
  | module decl | package decl | typeAlias decl | function decl | property decl => rfl

/-! ## Kinds of members -/

theorem isClasslike_or_isTypeAlias_of_mem_memberTypes {declaration type : Declaration}
    (member : type ∈ declaration.memberTypes) : type.isClasslike ∨ type.isTypeAlias := by
  cases declaration with
  | package decl =>
      rcases List.mem_append.mp member with isClass | isAlias
      · obtain ⟨nested, -, rfl⟩ := List.mem_map.mp isClass
        exact .inl rfl
      · obtain ⟨synonym, -, rfl⟩ := List.mem_map.mp isAlias
        exact .inr rfl
  | classlike decl | enumEntry decl =>
      obtain ⟨nested, -, rfl⟩ := List.mem_map.mp member
      exact .inl rfl
  | module | typeAlias | function | property => simp [memberTypes] at member

theorem isEnumEntry_of_mem_enumEntries {declaration entry : Declaration}
    (member : entry ∈ declaration.enumEntries) : entry.isEnumEntry := by
  cases declaration with
  | classlike decl =>
      obtain ⟨nested, -, rfl⟩ := List.mem_map.mp member
      rfl
  | module | package | typeAlias | function | property | enumEntry =>
      simp [enumEntries] at member

end Declaration

/-- The kinds of members that hold no members of their own. -/
inductive CallableKind where
  | function
  | property

namespace CallableKind

open Declaration

/-- The declaration is of the kind. -/
def includes : CallableKind → Declaration → Bool
  | .function => isFunction
  | .property => isProperty

/-- The members of the kind that a declaration holds. -/
def members : CallableKind → Declaration → List Declaration
  | .function => memberFunctions
  | .property => memberProperties

theorem includes_of_mem_members (kind : CallableKind) {holder callable : Declaration}
    (member : callable ∈ kind.members holder) : kind.includes callable := by
  cases kind with
  | function | property =>
      cases holder with
      | package | classlike | enumEntry =>
          obtain ⟨decl, -, rfl⟩ := List.mem_map.mp member
          rfl
      | module | typeAlias | function | property => exact (List.not_mem_nil member).elim

/-- The members of a kind in a list of declarations are of the kind. -/
theorem includes_of_mem_flatMap (kind : CallableKind) {holders : List Declaration}
    {callable : Declaration} (member : callable ∈ holders.flatMap kind.members) :
    kind.includes callable := by
  obtain ⟨holder, -, held⟩ := List.mem_flatMap.mp member
  exact kind.includes_of_mem_members held

end CallableKind

namespace Declaration

/-! ## Constructors -/

/-- The constructors of a class. -/
def constructors : Declaration → List Declaration
  | .classlike decl => decl.constructors.map .function
  | _ => []

@[simp]
theorem constructors_unrenamed (declaration : Declaration) :
    declaration.unrenamed.constructors = declaration.constructors := by
  cases declaration <;> rfl

theorem isFunction_of_mem_constructors {declaration constructor : Declaration}
    (member : constructor ∈ declaration.constructors) : constructor.isFunction := by
  cases declaration with
  | classlike decl =>
      obtain ⟨function, -, rfl⟩ := List.mem_map.mp member
      rfl
  | module | package | typeAlias | function | property | enumEntry =>
      simp [constructors] at member

def isAnnotationClass : Declaration → Bool
  | .classlike decl => decl.kind == .annotationKind
  | _ => false

private theorem any_annotationKind (group : List Declaration) :
    (group.filterMap classlike?).any (·.kind == .annotationKind) = group.any isAnnotationClass := by
  induction group with
  | nil => rfl
  | cons head tail ih =>
      cases head with
      | classlike decl => exact congrArg (decl.kind == .annotationKind || ·) ih
      | module | package | typeAlias | function | property | enumEntry => exact ih

private theorem flatMap_constructors (group : List Declaration) :
    ((group.filterMap classlike?).flatMap fun decl => decl.constructors.map function) =
      group.flatMap constructors := by
  induction group with
  | nil => rfl
  | cons head tail ih =>
      cases head with
      | classlike decl => exact congrArg (decl.constructors.map function ++ ·) ih
      | module | package | typeAlias | function | property | enumEntry => exact ih

/-- An annotation class in a list hides the constructors of all classes in it. -/
theorem shownConstructors_eq (group : List Declaration) :
    shownConstructors group =
      if group.any isAnnotationClass then [] else group.flatMap constructors := by
  rw [shownConstructors, any_annotationKind, flatMap_constructors]

theorem exists_of_mem_shownConstructors {group : List Declaration} {constructor : Declaration}
    (member : constructor ∈ shownConstructors group) :
    ∃ type ∈ group, constructor ∈ type.constructors := by
  rw [shownConstructors_eq] at member
  split at member
  · exact (List.not_mem_nil member).elim
  · exact List.mem_flatMap.mp member

/-! ## Depth -/

private theorem nestingOfClasslike_le {decl : ClasslikeDecl} {decls : List ClasslikeDecl}
    (member : decl ∈ decls) : nestingOfClasslike decl ≤ nestingOfClasslikes decls := by
  induction decls with
  | nil => simp at member
  | cons head tail ih =>
      rw [nestingOfClasslikes]
      rcases List.mem_cons.mp member with rfl | inTail
      · exact Nat.le_max_left ..
      · have tailBound := ih inTail
        omega

private theorem nestingOfEntry_le {decl : EnumEntryDecl} {decls : List EnumEntryDecl}
    (member : decl ∈ decls) : nestingOfEntry decl ≤ nestingOfEntries decls := by
  induction decls with
  | nil => simp at member
  | cons head tail ih =>
      rw [nestingOfEntries]
      rcases List.mem_cons.mp member with rfl | inTail
      · exact Nat.le_max_left ..
      · have tailBound := ih inTail
        omega

/-- The types of a package are not nested deeper than the package says. -/
theorem nesting_le_of_mem_package {decl : PackageDecl} {type : Declaration}
    (member : type ∈ (package decl).memberTypes) : type.nesting ≤ (package decl).nesting := by
  rcases List.mem_append.mp member with isClass | isAlias
  · obtain ⟨nested, inPackage, rfl⟩ := List.mem_map.mp isClass
    exact nestingOfClasslike_le inPackage
  · obtain ⟨synonym, -, rfl⟩ := List.mem_map.mp isAlias
    exact Nat.zero_le _

/-- The types of a class or enum entry are nested less deep than it is. -/
theorem nesting_lt_of_mem_memberTypes {declaration type : Declaration}
    (holder : declaration.isClasslike ∨ declaration.isEnumEntry)
    (member : type ∈ declaration.memberTypes) : type.nesting < declaration.nesting := by
  cases declaration with
  | classlike decl =>
      obtain ⟨nested, inClass, rfl⟩ := List.mem_map.mp member
      have bound := nestingOfClasslike_le inClass
      cases decl
      exact Nat.lt_succ_of_le (Nat.le_trans bound (Nat.le_max_left ..))
  | enumEntry decl =>
      obtain ⟨nested, inEntry, rfl⟩ := List.mem_map.mp member
      cases decl
      exact Nat.lt_succ_of_le (nestingOfClasslike_le inEntry)
  | module | package | typeAlias | function | property =>
      simp [isClasslike, isEnumEntry] at holder

/-- The entries of a class are nested less deep than the class is. -/
theorem nesting_lt_of_mem_enumEntries {declaration entry : Declaration}
    (member : entry ∈ declaration.enumEntries) : entry.nesting < declaration.nesting := by
  cases declaration with
  | classlike decl =>
      obtain ⟨nested, inClass, rfl⟩ := List.mem_map.mp member
      have bound := nestingOfEntry_le inClass
      cases decl
      exact Nat.lt_succ_of_le (Nat.le_trans bound (Nat.le_max_right ..))
  | module | package | typeAlias | function | property | enumEntry => simp [enumEntries] at member

/-- A class or enum entry is nested at least once. -/
theorem nesting_pos {declaration : Declaration}
    (holder : declaration.isClasslike ∨ declaration.isEnumEntry) : 0 < declaration.nesting := by
  cases declaration with
  | classlike decl =>
      cases decl
      exact Nat.succ_pos _
  | enumEntry decl =>
      cases decl
      exact Nat.succ_pos _
  | module | package | typeAlias | function | property =>
      simp [isClasslike, isEnumEntry] at holder

/-- A bound of the deepest nesting bounds every nesting. -/
theorem deepestNesting_le {declarations : List Declaration} {bound : Nat} :
    deepestNesting declarations ≤ bound ↔
      ∀ declaration ∈ declarations, declaration.nesting ≤ bound := by
  induction declarations with
  | nil => simp [deepestNesting]
  | cons head tail ih =>
      have step : deepestNesting (head :: tail) = max head.nesting (deepestNesting tail) := rfl
      rw [step, Nat.max_le, ih, List.forall_mem_cons]

theorem nesting_le_deepestNesting {declarations : List Declaration} {declaration : Declaration}
    (member : declaration ∈ declarations) : declaration.nesting ≤ deepestNesting declarations :=
  deepestNesting_le.mp (Nat.le_refl _) declaration member

/-! ## Everything declared within -/

mutual

/-- A class and everything declared in it, constructors aside. -/
def withinClasslike : ClasslikeDecl → List Declaration
  | ⟨common, kind, visibility, constructors, functions, properties, classlikes, entries, supertypes,
    expectPresentIn⟩ =>
    .classlike ⟨common, kind, visibility, constructors, functions, properties, classlikes, entries,
        supertypes, expectPresentIn⟩ ::
      (withinClasslikes classlikes ++ withinEntries entries ++ functions.map .function ++
        properties.map .property)

/-- An enum entry and everything declared in it. -/
def withinEntry : EnumEntryDecl → List Declaration
  | ⟨common, functions, properties, classlikes⟩ =>
    .enumEntry ⟨common, functions, properties, classlikes⟩ ::
      (withinClasslikes classlikes ++ functions.map .function ++ properties.map .property)

/-- The classes of a list and everything declared in them, constructors aside. -/
def withinClasslikes : List ClasslikeDecl → List Declaration
  | [] => []
  | head :: tail => withinClasslike head ++ withinClasslikes tail

/-- The enum entries of a list and everything declared in them. -/
def withinEntries : List EnumEntryDecl → List Declaration
  | [] => []
  | head :: tail => withinEntry head ++ withinEntries tail

end

/-- A declaration of a package, or the package, and everything declared in it, constructors
aside. -/
def within : Declaration → List Declaration
  | .package decl =>
    .package decl ::
      (withinClasslikes decl.classlikes ++ decl.typeAliases.map .typeAlias ++
        decl.functions.map .function ++ decl.properties.map .property)
  | .classlike decl => withinClasslike decl
  | .enumEntry decl => withinEntry decl
  | declaration => [declaration]

private theorem withinClasslikes_eq (decls : List ClasslikeDecl) :
    withinClasslikes decls = (decls.map classlike).flatMap within := by
  rw [List.flatMap_map]
  exact eq_flatMap_of_cons (by rw [withinClasslikes])
    (fun _ _ => by rw [withinClasslikes, within]) decls

private theorem withinEntries_eq (decls : List EnumEntryDecl) :
    withinEntries decls = (decls.map enumEntry).flatMap within := by
  rw [List.flatMap_map]
  exact eq_flatMap_of_cons (by rw [withinEntries]) (fun _ _ => by rw [withinEntries, within]) decls

private theorem flatMap_within_typeAlias (decls : List TypeAliasDecl) :
    (decls.map typeAlias).flatMap within = decls.map typeAlias := by
  induction decls with
  | nil => rfl
  | cons head tail ih => simp [ih, within]

/-- What is declared within a declaration is the declaration, what is declared within its types and
entries, and its functions and properties. -/
theorem within_eq (declaration : Declaration) :
    declaration.within =
      declaration ::
        (declaration.memberTypes.flatMap within ++ declaration.enumEntries.flatMap within ++
          declaration.memberFunctions ++ declaration.memberProperties) := by
  cases declaration with
  | package decl =>
      simp [within, memberTypes, enumEntries, memberFunctions, memberProperties,
        withinClasslikes_eq, flatMap_within_typeAlias]
  | classlike decl =>
      cases decl
      simp [within, withinClasslike, memberTypes, enumEntries, memberFunctions, memberProperties,
        withinClasslikes_eq, withinEntries_eq]
  | enumEntry decl =>
      cases decl
      simp [within, withinEntry, memberTypes, enumEntries, memberFunctions, memberProperties,
        withinClasslikes_eq]
  | module | typeAlias | function | property => rfl

private theorem ne_package_of_mem_nested {declaration nested : Declaration}
    (member : nested ∈ declaration.memberTypes ++ declaration.enumEntries) (decl : PackageDecl) :
    nested ≠ .package decl := by
  rintro rfl
  cases declaration <;> simp [memberTypes, enumEntries] at member

/-- What holds of every declaration if it holds of its types and entries holds of all
declarations. -/
theorem nestedInduction {motive : Declaration → Prop}
    (step : ∀ declaration,
      (∀ nested ∈ declaration.memberTypes ++ declaration.enumEntries, motive nested) →
        motive declaration)
    (declaration : Declaration) : motive declaration := by
  -- Below a package the nesting falls; a package itself is never nested.
  have ofHolder : ∀ bound (declaration : Declaration), declaration.nesting < bound →
      (∀ decl, declaration ≠ .package decl) → motive declaration := by
    intro bound
    induction bound with
    | zero => exact fun _ below => (Nat.not_lt_zero _ below).elim
    | succ bound ih =>
        intro declaration below notPackage
        refine step declaration fun nested member => ?_
        have shallower : nested.nesting < declaration.nesting := by
          rcases List.mem_append.mp member with isType | isEntry
          · refine nesting_lt_of_mem_memberTypes ?_ isType
            cases declaration <;> simp_all [isClasslike, isEnumEntry, memberTypes]
          · exact nesting_lt_of_mem_enumEntries isEntry
        exact ih nested (by omega) (ne_package_of_mem_nested member)
  exact step declaration fun nested member =>
    ofHolder _ nested (Nat.lt_succ_self _) (ne_package_of_mem_nested member)

theorem self_mem_within (declaration : Declaration) : declaration ∈ declaration.within := by
  rw [within_eq]
  exact List.mem_cons_self

/-- Nothing but the member itself is declared within a function or property. -/
private theorem eq_of_mem_within (kind : CallableKind) {holder callable inner : Declaration}
    (member : callable ∈ kind.members holder) (innerMember : inner ∈ callable.within) :
    inner = callable := by
  have isOfKind := kind.includes_of_mem_members member
  cases callable with
  | function | property => exact List.mem_singleton.mp innerMember
  | module | package | classlike | typeAlias | enumEntry => cases kind <;> cases isOfKind

/-- What is declared within something that is declared within a declaration is declared within the
declaration. -/
theorem mem_within_trans {inner middle outer : Declaration} (innerMember : inner ∈ middle.within)
    (middleMember : middle ∈ outer.within) : inner ∈ outer.within := by
  induction outer using nestedInduction with
  | step outer ih =>
      rw [within_eq outer] at middleMember ⊢
      simp only [List.mem_cons, List.mem_append, List.mem_flatMap] at middleMember ⊢ ih
      rcases middleMember with rfl | ((⟨type, isType, inType⟩ | ⟨entry, isEntry, inEntry⟩) |
        isFunction) | isProperty
      · rw [within_eq] at innerMember
        simpa only [List.mem_cons, List.mem_append, List.mem_flatMap] using innerMember
      · exact .inr (.inl (.inl (.inl ⟨type, isType, ih type (.inl isType) inType⟩)))
      · exact .inr (.inl (.inl (.inr ⟨entry, isEntry, ih entry (.inr isEntry) inEntry⟩)))
      · obtain rfl := eq_of_mem_within .function isFunction innerMember
        exact .inr (.inl (.inr isFunction))
      · obtain rfl := eq_of_mem_within .property isProperty innerMember
        exact .inr (.inr isProperty)

end Declaration

/-- Everything declared in the packages of a module, constructors aside. -/
def ModuleDecl.declarations (decl : ModuleDecl) : List Declaration :=
  decl.packages.flatMap fun package => (Declaration.package package).within

theorem ModuleDecl.mem_declarations_of_within {decl : ModuleDecl} {inner outer : Declaration}
    (innerMember : inner ∈ outer.within) (outerMember : outer ∈ decl.declarations) :
    inner ∈ decl.declarations := by
  obtain ⟨package, isPackage, inPackage⟩ := List.mem_flatMap.mp outerMember
  exact List.mem_flatMap.mpr
    ⟨package, isPackage, Declaration.mem_within_trans innerMember inPackage⟩

end DocPages
