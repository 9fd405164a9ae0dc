import DocPages.Proofs.Signature.Pieces
import DocPages.Signature.Declaration

/-!
# Problems of signatures

The problems of a signature are those of its pieces, and only types have any: everything else in a
signature can always be shown. A type has a problem of its own if it has no name, or no return type
after its receiver, and it has the problems of its arguments.
-/

namespace DocPages

/-- A problem of a type. -/
def Problem.concernsType : Problem → Bool
  | .unresolvedType _ | .missingReturnType _ => true
  | _ => false

/-- A problem of a type is an error. -/
theorem Problem.severity_of_concernsType {problem : Problem} (concerns : problem.concernsType) :
    problem.severity = .error := by
  cases problem <;> first | rfl | cases concerns

namespace TypeUse

/-- The first argument of the type is a receiver. -/
def hasReceiver (type : TypeUse) : Bool := type.function.any FunctionForm.hasReceiver

/-- The type itself can be shown, whatever its arguments are: it has a name if it is no function
type, and a function type with a receiver has a return type after it. -/
structure IsResolvable (type : TypeUse) : Prop where
  name : type.isFunctionType = false → type.path ≠ []
  returnType : type.isFunctionType = true → type.hasReceiver = true → 2 ≤ type.arguments.length

instance (type : TypeUse) : Decidable type.IsResolvable :=
  decidable_of_iff
    ((type.isFunctionType = false → type.path ≠ []) ∧
      (type.isFunctionType = true → type.hasReceiver = true → 2 ≤ type.arguments.length))
    ⟨fun ⟨name, returnType⟩ => ⟨name, returnType⟩, fun ⟨name, returnType⟩ => ⟨name, returnType⟩⟩

/-- The problem with the type itself. -/
def problem? (type : TypeUse) : Option Problem :=
  if type.isFunctionType then
    if type.hasReceiver && type.arguments.length == 1 then some (.missingReturnType type) else none
  else if type.path.isEmpty then some (.unresolvedType type)
  else none

/-- A type that can be shown has no problem. -/
theorem IsResolvable.problem?_eq_none {type : TypeUse} (resolvable : type.IsResolvable) :
    type.problem? = none := by
  rw [problem?]
  split
  · rename_i isFunction
    refine if_neg fun isLone => ?_
    obtain ⟨hasReceiver, single⟩ := Bool.and_eq_true_iff.mp isLone
    have enough := resolvable.returnType isFunction hasReceiver
    have single : type.arguments.length = 1 := by simpa using single
    omega
  · rename_i noFunction
    refine if_neg fun isEmpty => ?_
    exact resolvable.name (by simpa using noFunction) (List.isEmpty_iff.mp isEmpty)

/-- The problem with a type is one of types. -/
theorem concernsType_of_problem? {type : TypeUse} {problem : Problem}
    (own : type.problem? = some problem) : problem.concernsType := by
  rw [problem?] at own
  split at own
  · obtain ⟨-, equality⟩ := Option.ite_none_right_eq_some.mp own
    exact Option.some.inj equality ▸ rfl
  · obtain ⟨-, equality⟩ := Option.ite_none_right_eq_some.mp own
    exact Option.some.inj equality ▸ rfl

end TypeUse

/-- The types that the signature of a declaration can show: supertypes, aliased types, receivers,
parameters and results. -/
def Declaration.usedTypes : Declaration → List TypeUse
  | .module _ | .package _ | .enumEntry _ => []
  | .classlike decl => decl.supertypes
  | .typeAlias decl => decl.underlyingType.values
  | .function decl =>
    decl.receiver.toList.map Parameter.type ++ decl.parameters.map Parameter.type ++
      decl.returnType.toList
  | .property decl => decl.receiver.toList.map Parameter.type ++ [decl.type]

namespace Signature

/-! ## Sequences of pieces -/

@[simp] theorem problems_nil : problems [] = [] := rfl

@[simp] theorem problems_append (left right : List Piece) :
    problems (left ++ right) = problems left ++ problems right := List.filterMap_append

@[simp] theorem problems_text (kind : Content.Kind) (body : String) (pieces : List Piece) :
    problems (.text kind body :: pieces) = problems pieces := rfl

@[simp] theorem problems_symbol (body : String) (pieces : List Piece) :
    problems (.symbol body :: pieces) = problems pieces := rfl

@[simp] theorem problems_link (kind : Content.Kind) (body : String) (dri : Dri)
    (pieces : List Piece) : problems (.link kind body dri :: pieces) = problems pieces := rfl

@[simp] theorem problems_placeholder (problem : Problem) (pieces : List Piece) :
    problems (.placeholder problem :: pieces) = problem :: problems pieces := rfl

/-- The commas between sequences have no problems. -/
@[simp] theorem problems_commaSeparated (sequences : List (List Piece)) :
    problems (commaSeparated sequences) = sequences.flatMap problems := by
  rw [commaSeparated]
  induction sequences with
  | nil => rfl
  | cons head tail ih =>
      cases tail with
      | nil => simp
      | cons next rest =>
          rw [List.intersperse_cons_cons, List.flatten_cons, List.flatten_cons, problems_append,
            problems_append, ih]
          rfl

/-! ## Types -/

private theorem problems_arrowPieces_empty (type : TypeUse) (arguments : List TypeUse) :
    problems (arrowPieces type (arguments.map fun _ => [])) =
      if arguments.isEmpty then [.missingReturnType type] else [] := by
  rcases List.eq_nil_or_concat' arguments with rfl | ⟨parameters, result, rfl⟩
  · rfl
  · rw [arrowPieces, List.map_append, List.map_singleton, List.getLast?_concat]
    simp

private theorem problems_functionPieces_empty {type : TypeUse} (isFunction : type.isFunctionType) :
    problems (functionPieces type (type.arguments.map fun _ => [])) =
      if type.hasReceiver && type.arguments.length == 1 then [.missingReturnType type] else [] := by
  have parentheses (inner : List Piece) :
      problems (if type.nullable then [.symbol "("] ++ inner ++ [.symbol ")?"] else inner) =
        problems inner := by
    split <;> simp
  obtain ⟨receiver, rest, arguments⟩ : ∃ receiver rest, type.arguments = receiver :: rest := by
    have notEmpty := (Bool.and_eq_true_iff.mp isFunction).2
    exact List.exists_cons_of_ne_nil (by simpa using notEmpty)
  unfold functionPieces
  rw [arguments, parentheses, List.map_cons]
  cases receives : type.hasReceiver with
  | true =>
      rw [TypeUse.hasReceiver] at receives
      simp only [receives, if_true, problems_append, problems_nil, problems_symbol,
        List.nil_append, problems_arrowPieces_empty]
      cases rest <;> simp
  | false =>
      rw [TypeUse.hasReceiver] at receives
      simp only [receives, Bool.false_eq_true, if_false, Bool.false_and]
      exact problems_arrowPieces_empty type (receiver :: rest)

/-- The only problem that a type adds to those of its arguments is its own. -/
theorem problems_ownPieces (type : TypeUse) : problems (ownPieces type) = type.problem?.toList := by
  rw [ownPieces, piecesAround, TypeUse.problem?]
  split
  · rename_i isFunction
    rw [problems_functionPieces_empty isFunction]
    split <;> rfl
  · have noMark : problems (if type.nullable then [.symbol "?"] else []) = [] := by
      split <;> rfl
    have noArgument : problems (argumentPieces (type.arguments.map fun _ => [])) = [] := by
      cases type.arguments <;> simp [argumentPieces]
    rw [problems_append, problems_append, noMark, noArgument, namePiece, TypeUse.simpleName?]
    rcases List.eq_nil_or_concat' type.path with path | ⟨outer, name, path⟩
    · simp [path]
    · cases type.dri <;> simp [path]

/-- Up to their order, the problems of a type are those of the types inside it. -/
theorem problems_ofType_perm (type : TypeUse) :
    (problems (ofType type)).Perm (type.nested.filterMap TypeUse.problem?) := by
  have perm : (problems (ofType type)).Perm (problems (type.nested.flatMap ownPieces)) :=
    (ofType_perm type).filterMap _
  refine perm.trans (.of_eq ?_)
  rw [problems, List.filterMap_flatMap, List.filterMap_eq_flatMap_toList]
  exact List.flatMap_congr fun use _ => problems_ownPieces use

theorem mem_problems_ofType {problem : Problem} (type : TypeUse) :
    problem ∈ problems (ofType type) ↔ ∃ use ∈ type.nested, use.problem? = some problem := by
  rw [(problems_ofType_perm type).mem_iff, List.mem_filterMap]

/-! ## Declarations -/

private theorem problems_annotationPieces (extras : Extras Declaration) :
    problems (annotationPieces extras) = [] := by
  rw [annotationPieces]
  induction extras.annotations.getD [] with
  | nil => rfl
  | cons use uses ih => simpa using ih

private theorem problems_modifierPieces (visibility : Dependent Visibility)
    (extras : Extras Declaration) (id : SourceSetId) :
    problems (modifierPieces visibility extras id) = [] := by
  unfold modifierPieces
  extract_lets modifiers
  rw [problems_append]
  induction modifiers.toList with
  | nil => rfl
  | cons modifier others ih => simpa using ih

private theorem problems_nameLink (common : Common) (pieces : List Piece) :
    problems (nameLink common :: pieces) = problems pieces := rfl

private theorem problems_receiverPieces (receiver : Option Parameter) :
    problems (receiverPieces receiver) =
      (receiver.toList.map Parameter.type).flatMap (problems ∘ ofType) := by
  cases receiver with
  | none => rfl
  | some parameter => simp [receiverPieces]

private theorem problems_parameterPieces (parameters : List Parameter) :
    (parameters.map parameterPieces).flatMap problems =
      (parameters.map Parameter.type).flatMap (problems ∘ ofType) := by
  rw [List.flatMap_map, List.flatMap_map]
  rfl

/-- The result of a constructor and that of a function without one are left out. -/
private theorem problems_returnPieces_subset (decl : FunctionDecl) :
    problems (returnPieces decl) ⊆ decl.returnType.toList.flatMap (problems ∘ ofType) := by
  rw [returnPieces]
  cases decl.returnType with
  | none => simp
  | some type =>
      rw [apply_ite problems, Option.toList_some, List.flatMap_singleton]
      split
      · simp
      · exact List.nil_subset _

private theorem problems_functionDeclPieces_subset (decl : FunctionDecl) (id : SourceSetId) :
    problems (functionDeclPieces decl id) ⊆
      (Declaration.function decl).usedTypes.flatMap (problems ∘ ofType) := by
  have head : problems (if decl.isConstructor then [.link .main "constructor" decl.common.dri]
      else [.symbol "fun "] ++ receiverPieces decl.receiver ++ [nameLink decl.common]) ⊆
        (decl.receiver.toList.map Parameter.type).flatMap (problems ∘ ofType) := by
    split
    · exact List.nil_subset _
    · simp [problems_nameLink, problems_receiverPieces]
  simp only [functionDeclPieces, problems_append, problems_modifierPieces, problems_symbol,
    problems_nil, List.nil_append, List.append_nil, problems_commaSeparated,
    problems_parameterPieces, Declaration.usedTypes, List.flatMap_append]
  exact List.append_subset.mpr ⟨List.append_subset.mpr
    ⟨List.subset_append_of_subset_left _ (List.subset_append_of_subset_left _ head),
      List.subset_append_of_subset_left _ (List.subset_append_right _ _)⟩,
    List.subset_append_of_subset_right _ (problems_returnPieces_subset decl)⟩

private theorem problems_typeAliasPieces_subset (decl : TypeAliasDecl) (id : SourceSetId) :
    problems (typeAliasPieces decl id) ⊆
      (Declaration.typeAlias decl).usedTypes.flatMap (problems ∘ ofType) := by
  simp only [typeAliasPieces, problems_append, problems_modifierPieces, problems_symbol,
    problems_nameLink, problems_nil, List.nil_append, Dependent.get?]
  cases found : decl.underlyingType.entries.find? fun entry => entry.1 = id with
  | none => exact List.nil_subset _
  | some entry =>
      intro problem member
      have isUsed : entry.2 ∈ (Declaration.typeAlias decl).usedTypes :=
        List.mem_map_of_mem (List.mem_of_find?_eq_some found)
      exact List.mem_flatMap.mpr ⟨entry.2, isUsed, by simpa using member⟩

/-- The problems of a declaration are those of the types that it uses. -/
private theorem problems_declarationPieces_subset (declaration : Declaration) (id : SourceSetId) :
    problems (declarationPieces declaration id) ⊆
      declaration.usedTypes.flatMap (problems ∘ ofType) := by
  unfold declarationPieces
  rw [problems_append, problems_annotationPieces, List.nil_append]
  cases declaration with
  | module | package => exact List.nil_subset _
  | enumEntry decl => simp [problems_nameLink]
  | classlike decl =>
      simp only [classlikePieces, problems_append, problems_modifierPieces, problems_symbol,
        problems_nameLink, problems_nil, List.nil_append]
      split
      · exact List.nil_subset _
      · simp only [problems_append, problems_symbol, problems_nil, List.nil_append,
          problems_commaSeparated, List.flatMap_map]
        exact List.Subset.refl _
  | typeAlias decl => exact problems_typeAliasPieces_subset decl id
  | function decl => exact problems_functionDeclPieces_subset decl id
  | property decl =>
      simp only [propertyPieces, problems_append, problems_modifierPieces, problems_symbol,
        problems_nameLink, problems_nil, List.nil_append, List.append_nil, problems_receiverPieces,
        Declaration.usedTypes, List.flatMap_append, List.flatMap_singleton]
      exact List.Subset.refl _

/-- Every problem in the signature of a declaration is that of a type inside a used one. -/
theorem exists_type_of_mem_problemsOf {declaration : Declaration} {problem : Problem}
    (member : problem ∈ problemsOf declaration) :
    ∃ type ∈ declaration.usedTypes, ∃ use ∈ type.nested, use.problem? = some problem := by
  obtain ⟨id, -, inPieces⟩ := List.mem_flatMap.mp member
  obtain ⟨type, isUsed, inType⟩ :=
    List.mem_flatMap.mp (problems_declarationPieces_subset declaration id inPieces)
  exact ⟨type, isUsed, (mem_problems_ofType type).mp inType⟩

/-- Every problem in the signature of a declaration concerns a type. -/
theorem concernsType_of_mem_problemsOf {declaration : Declaration} {problem : Problem}
    (member : problem ∈ problemsOf declaration) : problem.concernsType := by
  obtain ⟨_, _, _, _, own⟩ := exists_type_of_mem_problemsOf member
  exact TypeUse.concernsType_of_problem? own

/-- A signature of types that can be shown has no problems. -/
theorem problemsOf_eq_nil {declaration : Declaration}
    (resolvable : ∀ type ∈ declaration.usedTypes, ∀ use ∈ type.nested, use.IsResolvable) :
    problemsOf declaration = [] := by
  refine List.eq_nil_iff_forall_not_mem.mpr fun problem member => ?_
  obtain ⟨type, isUsed, use, isInside, own⟩ := exists_type_of_mem_problemsOf member
  exact nomatch (resolvable type isUsed use isInside).problem?_eq_none.symm.trans own

end Signature

end DocPages
