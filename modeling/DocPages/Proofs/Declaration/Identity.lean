import DocPages.Collection.Elementwise
import DocPages.Declaration.Identity
import DocPages.Proofs.Collection.Comparison
import DocPages.Proofs.Collection.Grouping
import DocPages.Proofs.Text.Splitting

/-!
# Identities and their order

Identities are ordered by the written signatures of their callables, and are equal by their parts.
The two agree as long as names are plain and no name is both that of a type and that of a type
parameter. A written type is then read from its end: its last character tells whether it is
nullable, a star projection, a type with arguments or a bare name, and what stands before it ends
with a mark, so that a bare name is read as far as it goes.
-/

namespace DocPages

namespace SignatureType

/-! ## Types inside types -/

mutual

/-- The type and all types inside it, a type before its arguments. -/
def nested : SignatureType → List SignatureType
  | .constructor fullName params => .constructor fullName params :: nestedOfList params
  | .nullable wrapped => .nullable wrapped :: wrapped.nested
  | .param name => [.param name]
  | .star => [.star]

/-- The types of a list and all types inside them. -/
def nestedOfList : List SignatureType → List SignatureType
  | [] => []
  | head :: tail => head.nested ++ nestedOfList tail

end

theorem self_mem_nested (type : SignatureType) : type ∈ type.nested := by
  cases type <;> simp [nested]

theorem nested_subset_nestedOfList {type : SignatureType} {types : List SignatureType}
    (member : type ∈ types) : type.nested ⊆ nestedOfList types := by
  induction types with
  | nil => cases member
  | cons head tail ih =>
      rw [nestedOfList]
      rcases List.mem_cons.mp member with rfl | inTail
      · exact List.subset_append_left _ _
      · exact List.Subset.trans (ih inTail) (List.subset_append_right _ _)

theorem nested_subset_constructor (fullName : String) {param : SignatureType}
    {params : List SignatureType} (member : param ∈ params) :
    param.nested ⊆ (constructor fullName params).nested :=
  List.Subset.trans (nested_subset_nestedOfList member) (List.subset_cons_self _ _)

/-- What holds of a type whenever it holds of its arguments, or of the type that it makes nullable,
holds of every type. -/
theorem partInduction {motive : SignatureType → Prop}
    (constructor : ∀ fullName params, (∀ param ∈ params, motive param) →
      motive (.constructor fullName params))
    (param : ∀ name, motive (.param name))
    (nullable : ∀ wrapped, motive wrapped → motive (.nullable wrapped)) (star : motive .star)
    (type : SignatureType) : motive type :=
  match type with
  | .constructor fullName params =>
    constructor fullName params fun part _member =>
      partInduction constructor param nullable star part
  | .param name => param name
  | .nullable wrapped => nullable wrapped (partInduction constructor param nullable star wrapped)
  | .star => star
termination_by sizeOf type
decreasing_by
  · have smaller := List.sizeOf_lt_of_mem _member
    simp
    omega
  · simp

/-- The name of a type, unless it is that of a type parameter. -/
def constructorName? : SignatureType → Option String
  | .constructor fullName _ => some fullName
  | _ => none

/-- The name of a type parameter. -/
def paramName? : SignatureType → Option String
  | .param name => some name
  | _ => none

/-- The characters that mark and separate written types. -/
def marks : List Char := ['#', '[', ']', ',', '?', '*']

/-- All names in the types are plain, and none is both that of a type and that of a type
parameter. -/
structure AreLegible (types : List SignatureType) : Prop where
  constructorPlain : ∀ name ∈ (nestedOfList types).filterMap constructorName?,
    Text.IsPlain marks name
  paramPlain : ∀ name ∈ (nestedOfList types).filterMap paramName?, Text.IsPlain marks name
  apart : ∀ name ∈ (nestedOfList types).filterMap constructorName?,
    name ∉ (nestedOfList types).filterMap paramName?

instance (types : List SignatureType) : Decidable (AreLegible types) :=
  decidable_of_iff
    ((∀ name ∈ (nestedOfList types).filterMap constructorName?, Text.IsPlain marks name) ∧
      (∀ name ∈ (nestedOfList types).filterMap paramName?, Text.IsPlain marks name) ∧
      ∀ name ∈ (nestedOfList types).filterMap constructorName?,
        name ∉ (nestedOfList types).filterMap paramName?)
    ⟨fun ⟨constructorPlain, paramPlain, apart⟩ => ⟨constructorPlain, paramPlain, apart⟩,
      fun ⟨constructorPlain, paramPlain, apart⟩ => ⟨constructorPlain, paramPlain, apart⟩⟩

/-! ## Written types -/

/-- The characters of the written form. -/
def written (type : SignatureType) : List Char := type.display.toList

theorem displayList_eq_map (types : List SignatureType) :
    displayList types = types.map display :=
  eq_map_of_cons (by rw [displayList]) (fun _ _ => by rw [displayList]) types

@[simp]
theorem written_bare (fullName : String) : (constructor fullName []).written = fullName.toList := by
  simp [written, display]

@[simp]
theorem written_constructor (fullName : String) {params : List SignatureType}
    (present : params ≠ []) :
    (constructor fullName params).written =
      fullName.toList ++ '[' :: [','].intercalate (params.map written) ++ [']'] := by
  obtain ⟨first, rest, rfl⟩ := List.exists_cons_of_ne_nil present
  have parts : (displayList (first :: rest)).map String.toList = (first :: rest).map written := by
    rw [displayList_eq_map, List.map_map]
    rfl
  simp [written, display, String.toList_intercalate, parts]

@[simp]
theorem written_param (name : String) : (param name).written = name.toList := by
  simp [written, display]

@[simp]
theorem written_nullable (wrapped : SignatureType) :
    (nullable wrapped).written = wrapped.written ++ ['?'] := by
  simp [written, display]

@[simp]
theorem written_star : star.written = ['*'] := by
  simp [written, display]

/-- The mark that ends the written form, if one does. -/
def lastMark? : SignatureType → Option Char
  | .constructor _ [] | .param _ => none
  | .constructor _ (_ :: _) => some ']'
  | .nullable _ => some '?'
  | .star => some '*'

/-! ## Reading from the end -/

/-- The text is empty or ends with a mark. -/
def EndsInMark (text : List Char) : Prop :=
  ∀ character ∈ text.getLast?, character ∈ marks

/-- Behind a mark, the written forms of the types are told apart wherever they end a text. -/
def IsReadAs (left right : SignatureType) : Prop :=
  ∀ before before', EndsInMark before → EndsInMark before' →
    before ++ left.written = before' ++ right.written → before = before' ∧ left = right

/-- What stands before the last one of some arguments. -/
private def opening (params : List SignatureType) : List Char :=
  if params = [] then ['['] else ('[' :: [','].intercalate (params.map written)) ++ [',']

private theorem opening_append_written (params : List SignatureType) (last : SignatureType) :
    '[' :: [','].intercalate ((params ++ [last]).map written) = opening params ++ last.written := by
  induction params with
  | nil => simp [opening]
  | cons first rest ih =>
      cases rest with
      | nil => simp [opening]
      | cons next rest => simp_all [opening, List.intercalate_cons_cons]

/-- A comma stands before the last argument unless it is the only one. -/
private theorem getLast?_opening (params : List SignatureType) :
    (opening params).getLast? = some (if params = [] then '[' else ',') := by
  rw [opening]
  split
  · rfl
  · exact List.getLast?_concat ..

private theorem endsInMark_append_opening (before : List Char) (params : List SignatureType) :
    EndsInMark (before ++ opening params) := by
  rw [EndsInMark, List.getLast?_append, getLast?_opening]
  split <;> simp [marks]

/-- Arguments are read from the last one to the first. -/
private theorem arguments_inj {params others : List SignatureType} (present : params ≠ [])
    (othersPresent : others ≠ []) (reads : ∀ param ∈ params, ∀ other ∈ others, param.IsReadAs other)
    {before before' : List Char}
    (same : before ++ '[' :: [','].intercalate (params.map written) =
      before' ++ '[' :: [','].intercalate (others.map written)) :
    before = before' ∧ params = others := by
  induction params using List.reverseRecOn generalizing others with
  | nil => exact (present rfl).elim
  | append_singleton params last ih =>
      obtain ⟨others, last', isOthers⟩ := (List.eq_nil_or_concat others).resolve_left othersPresent
      obtain rfl := isOthers.trans List.concat_eq_append
      rw [opening_append_written, opening_append_written, ← List.append_assoc,
        ← List.append_assoc] at same
      obtain ⟨sameOpening, rfl⟩ := reads last (by simp) last' (by simp) _ _
        (endsInMark_append_opening before params) (endsInMark_append_opening before' others) same
      have sameMark := congrArg List.getLast? sameOpening
      rw [List.getLast?_append, List.getLast?_append, getLast?_opening, getLast?_opening]
        at sameMark
      by_cases single : params = [] <;> by_cases single' : others = []
      · simp_all [opening]
      · simp [single, single'] at sameMark
      · simp [single, single'] at sameMark
      · rw [opening, opening, if_neg single, if_neg single', ← List.append_assoc,
          ← List.append_assoc] at sameOpening
        have readsInit : ∀ param ∈ params, ∀ other ∈ others, param.IsReadAs other :=
          fun param isParam other isOther =>
            reads param (List.mem_append_left _ isParam) other (List.mem_append_left _ isOther)
        obtain ⟨sameBefore, rfl⟩ :=
          ih single single' readsInit (List.append_cancel_right sameOpening)
        exact ⟨sameBefore, rfl⟩

section

variable {types : List SignatureType} (legible : AreLegible types)

include legible

theorem AreLegible.plain_constructor {fullName : String} {params : List SignatureType}
    (member : .constructor fullName params ∈ nestedOfList types) : Text.IsPlain marks fullName :=
  legible.constructorPlain _ (List.mem_filterMap.mpr ⟨_, member, rfl⟩)

theorem AreLegible.plain_param {name : String} (member : .param name ∈ nestedOfList types) :
    Text.IsPlain marks name :=
  legible.paramPlain _ (List.mem_filterMap.mpr ⟨_, member, rfl⟩)

theorem AreLegible.name_ne {fullName name : String} {params : List SignatureType}
    (isConstructor : .constructor fullName params ∈ nestedOfList types)
    (isParam : .param name ∈ nestedOfList types) : fullName ≠ name := by
  rintro rfl
  exact legible.apart _ (List.mem_filterMap.mpr ⟨_, isConstructor, rfl⟩)
    (List.mem_filterMap.mpr ⟨_, isParam, rfl⟩)

/-- The last character of a written type is the mark that ends it, or else no mark. -/
private theorem filter_getLast?_written {type : SignatureType} (member : type ∈ nestedOfList types)
    (before : List Char) :
    (before ++ type.written).getLast?.filter (fun character => decide (character ∈ marks)) =
      type.lastMark? := by
  have named : ∀ {name : String}, Text.IsPlain marks name →
      (before ++ name.toList).getLast?.filter (fun character => decide (character ∈ marks)) =
        none := by
    intro name plain
    have present : name.toList ≠ [] := mt String.toList_eq_nil_iff.mp plain.1
    rw [List.getLast?_append, List.getLast?_eq_some_getLast present, Option.some_or]
    simp [plain.2 _ (List.getLast_mem present)]
  cases type with
  | constructor fullName params =>
      cases params with
      | nil => simpa [lastMark?] using named (legible.plain_constructor member)
      | cons first rest =>
          rw [written_constructor fullName (List.cons_ne_nil first rest), ← List.append_assoc,
            List.getLast?_concat]
          rfl
  | param name => simpa [lastMark?] using named (legible.plain_param member)
  | nullable wrapped =>
      rw [written_nullable, ← List.append_assoc, List.getLast?_concat]
      rfl
  | star =>
      rw [written_star, List.getLast?_concat]
      rfl

/-- Types whose written forms end one text end with the same mark or with none. -/
private theorem lastMark?_eq {left right : SignatureType} (isLeft : left ∈ nestedOfList types)
    (isRight : right ∈ nestedOfList types) {before before' : List Char}
    (same : before ++ left.written = before' ++ right.written) :
    left.lastMark? = right.lastMark? := by
  rw [← filter_getLast?_written legible isLeft before, same,
    filter_getLast?_written legible isRight before']

/-- Types that are written as a bare name are told apart by it. -/
private theorem bare_inj {left right : SignatureType} (isLeft : left ∈ nestedOfList types)
    (isRight : right ∈ nestedOfList types) (bare : left.lastMark? = none)
    (bare' : right.lastMark? = none) {before before' : List Char} (marked : EndsInMark before)
    (marked' : EndsInMark before') (same : before ++ left.written = before' ++ right.written) :
    before = before' ∧ left = right := by
  have read : ∀ {name name' : String}, Text.IsPlain marks name → Text.IsPlain marks name' →
      before ++ name.toList = before' ++ name'.toList → before = before' ∧ name = name' := by
    intro name name' plain plain' sameText
    exact (Text.append_plain_inj plain.2 plain'.2 marked marked' sameText).imp id
      String.toList_inj.mp
  cases left with
  | constructor fullName params =>
      obtain rfl : params = [] := by cases params <;> first | rfl | cases bare
      have plain := legible.plain_constructor isLeft
      cases right with
      | constructor fullName' params' =>
          obtain rfl : params' = [] := by cases params' <;> first | rfl | cases bare'
          rw [written_bare, written_bare] at same
          obtain ⟨sameBefore, rfl⟩ := read plain (legible.plain_constructor isRight) same
          exact ⟨sameBefore, rfl⟩
      | param name =>
          rw [written_bare, written_param] at same
          have sameName := (read plain (legible.plain_param isRight) same).2
          exact (legible.name_ne isLeft isRight sameName).elim
      | nullable wrapped | star => cases bare'
  | param name =>
      have plain := legible.plain_param isLeft
      cases right with
      | constructor fullName params =>
          obtain rfl : params = [] := by cases params <;> first | rfl | cases bare'
          rw [written_param, written_bare] at same
          have sameName := (read plain (legible.plain_constructor isRight) same).2
          exact (legible.name_ne isRight isLeft sameName.symm).elim
      | param name' =>
          rw [written_param, written_param] at same
          obtain ⟨sameBefore, rfl⟩ := read plain (legible.plain_param isRight) same
          exact ⟨sameBefore, rfl⟩
      | nullable wrapped | star => cases bare'
  | nullable wrapped | star => cases bare

/-- Types with arguments are told apart by their names and arguments. -/
private theorem constructor_inj {fullName fullName' : String} {params others : List SignatureType}
    (isLeft : .constructor fullName params ∈ nestedOfList types)
    (isRight : .constructor fullName' others ∈ nestedOfList types) (present : params ≠ [])
    (othersPresent : others ≠ []) (reads : ∀ param ∈ params, ∀ other ∈ others, param.IsReadAs other)
    {before before' : List Char} (marked : EndsInMark before) (marked' : EndsInMark before')
    (same : before ++ (constructor fullName params).written =
      before' ++ (constructor fullName' others).written) :
    before = before' ∧ constructor fullName params = constructor fullName' others := by
  rw [written_constructor fullName present, written_constructor fullName' othersPresent,
    ← List.append_assoc, ← List.append_assoc, ← List.append_assoc, ← List.append_assoc] at same
  obtain ⟨sameStart, rfl⟩ :=
    arguments_inj present othersPresent reads (List.append_cancel_right same)
  obtain ⟨sameBefore, sameName⟩ := Text.append_plain_inj (legible.plain_constructor isLeft).2
    (legible.plain_constructor isRight).2 marked marked' sameStart
  obtain rfl := String.toList_inj.mp sameName
  exact ⟨sameBefore, rfl⟩

/-- Legible types are told apart by their written forms. -/
theorem AreLegible.isReadAs {left right : SignatureType} (leftIn : left.nested ⊆ nestedOfList types)
    (rightIn : right.nested ⊆ nestedOfList types) : left.IsReadAs right := by
  induction left using partInduction generalizing right with
  | constructor fullName params ih =>
      intro before before' marked marked' same
      have isLeft := leftIn (self_mem_nested _)
      have isRight := rightIn (self_mem_nested _)
      have sameMark := lastMark?_eq legible isLeft isRight same
      by_cases bare : params = []
      · subst bare
        exact bare_inj legible isLeft isRight rfl sameMark.symm marked marked' same
      · obtain ⟨first, rest, rfl⟩ := List.exists_cons_of_ne_nil bare
        -- Only another type with arguments ends with a closing bracket.
        obtain ⟨fullName', first', rest', rfl⟩ : ∃ fullName' first' rest',
            right = constructor fullName' (first' :: rest') := by
          rcases right with ⟨fullName', _ | ⟨first', rest'⟩⟩ | _ | _ | _
          · cases sameMark
          · exact ⟨fullName', first', rest', rfl⟩
          all_goals cases sameMark
        have reads : ∀ param ∈ first :: rest, ∀ other ∈ first' :: rest', param.IsReadAs other :=
          fun param isParam other isOther => ih param isParam
            (List.Subset.trans (nested_subset_constructor fullName isParam) leftIn)
            (List.Subset.trans (nested_subset_constructor fullName' isOther) rightIn)
        exact constructor_inj legible isLeft isRight bare (List.cons_ne_nil first' rest') reads
          marked marked' same
  | param name =>
      intro before before' marked marked' same
      have isLeft := leftIn (self_mem_nested _)
      have isRight := rightIn (self_mem_nested _)
      have sameMark := lastMark?_eq legible isLeft isRight same
      exact bare_inj legible isLeft isRight rfl sameMark.symm marked marked' same
  | nullable wrapped ih =>
      intro before before' marked marked' same
      have sameMark := lastMark?_eq legible (leftIn (self_mem_nested _))
        (rightIn (self_mem_nested _)) same
      obtain ⟨wrapped', rfl⟩ : ∃ wrapped', right = nullable wrapped' := by
        rcases right with ⟨_, _ | _⟩ | _ | wrapped' | _
        case nullable => exact ⟨wrapped', rfl⟩
        all_goals cases sameMark
      rw [written_nullable, written_nullable, ← List.append_assoc, ← List.append_assoc] at same
      obtain ⟨sameBefore, rfl⟩ := ih (List.Subset.trans (List.subset_cons_self _ _) leftIn)
        (List.Subset.trans (List.subset_cons_self _ _) rightIn) before before' marked marked'
        (List.append_cancel_right same)
      exact ⟨sameBefore, rfl⟩
  | star =>
      intro before before' marked marked' same
      have sameMark := lastMark?_eq legible (leftIn (self_mem_nested _))
        (rightIn (self_mem_nested _)) same
      obtain rfl : right = star := by
        rcases right with ⟨_, _ | _⟩ | _ | _ | _
        case star => rfl
        all_goals cases sameMark
      exact ⟨List.append_cancel_right same, rfl⟩

theorem AreLegible.written_inj {left right : SignatureType} (isLeft : left ∈ types)
    (isRight : right ∈ types) (same : left.written = right.written) : left = right := by
  have unmarked : EndsInMark [] := fun character isLast => nomatch isLast
  exact (legible.isReadAs (nested_subset_nestedOfList isLeft) (nested_subset_nestedOfList isRight)
    [] [] unmarked unmarked same).2

/-- No written type holds a number sign. -/
theorem AreLegible.hash_notMem_written {type : SignatureType}
    (nestedIn : type.nested ⊆ nestedOfList types) : '#' ∉ type.written := by
  induction type using partInduction with
  | constructor fullName params ih =>
      have plain := (legible.plain_constructor (nestedIn (self_mem_nested _))).2
      have nameFree : '#' ∉ fullName.toList := fun member => plain _ member (by decide)
      by_cases bare : params = []
      · simpa [bare] using nameFree
      · have paramsFree : '#' ∉ [','].intercalate (params.map written) :=
          Text.notMem_intercalate (by decide) (List.forall_mem_map.mpr fun param isParam =>
            ih param isParam
              (List.Subset.trans (nested_subset_constructor fullName isParam) nestedIn))
        simp [written_constructor fullName bare, nameFree, paramsFree]
  | param name =>
      have plain := (legible.plain_param (nestedIn (self_mem_nested _))).2
      rw [written_param]
      exact fun member => plain _ member (by decide)
  | nullable wrapped ih =>
      have wrappedFree := ih (List.Subset.trans (List.subset_cons_self _ _) nestedIn)
      simp [wrappedFree]
  | star => simp

theorem AreLegible.written_ne_nil {type : SignatureType} (member : type ∈ nestedOfList types) :
    type.written ≠ [] := by
  cases type with
  | constructor fullName params =>
      have nonempty := mt String.toList_eq_nil_iff.mp (legible.plain_constructor member).1
      by_cases bare : params = []
      · simpa [bare] using nonempty
      · simp [written_constructor fullName bare]
  | param name =>
      rw [written_param]
      exact mt String.toList_eq_nil_iff.mp (legible.plain_param member).1
  | nullable wrapped | star => simp

end

end SignatureType

namespace CallableId

/-- The types of the receiver and of the parameters. -/
def types (callable : CallableId) : List SignatureType :=
  callable.receiver.toList ++ callable.params

open SignatureType (AreLegible written)

/-- A signature is the written receiver, if there is one, and then the written parameters. -/
private theorem toList_signature (callable : CallableId) :
    callable.signature.toList = (callable.receiver.map written).getD [] ++
      '#' :: ['#'].intercalate (callable.params.map written) := by
  have params : (SignatureType.displayList callable.params).map String.toList =
      callable.params.map written := by
    rw [SignatureType.displayList_eq_map, List.map_map]
    rfl
  have receiver : ((callable.receiver.map SignatureType.display).getD "").toList =
      (callable.receiver.map written).getD [] := by
    cases callable.receiver <;> rfl
  simp [signature, String.toList_intercalate, params, receiver]

section

variable {types : List SignatureType} (legible : AreLegible types)

include legible

private theorem hash_notMem_receiver {callable : CallableId} (known : callable.types ⊆ types) :
    '#' ∉ (callable.receiver.map written).getD [] := by
  cases isReceiver : callable.receiver with
  | none => exact List.not_mem_nil
  | some receiver =>
      have member : receiver ∈ types := known (List.mem_append_left _ (by simp [isReceiver]))
      exact legible.hash_notMem_written (SignatureType.nested_subset_nestedOfList member)

private theorem separable_params {callable : CallableId} (known : callable.types ⊆ types) :
    ∀ part ∈ callable.params.map written, part ≠ [] ∧ '#' ∉ part := by
  refine List.forall_mem_map.mpr fun param isParam => ?_
  have nestedIn :=
    SignatureType.nested_subset_nestedOfList (known (List.mem_append_right _ isParam))
  exact ⟨legible.written_ne_nil (nestedIn param.self_mem_nested),
    legible.hash_notMem_written nestedIn⟩

/-- A written receiver, or that there is none, tells the receiver. -/
private theorem receiver_inj {left right : CallableId} (leftKnown : left.types ⊆ types)
    (rightKnown : right.types ⊆ types)
    (same : (left.receiver.map written).getD [] = (right.receiver.map written).getD []) :
    left.receiver = right.receiver := by
  have isKnown : ∀ {callable : CallableId} {receiver : SignatureType}, callable.types ⊆ types →
      callable.receiver = some receiver → receiver ∈ types := fun known isReceiver =>
    known (List.mem_append_left _ (by simp [isReceiver]))
  have present : ∀ {receiver : SignatureType}, receiver ∈ types → receiver.written ≠ [] :=
    fun member => legible.written_ne_nil
      (SignatureType.nested_subset_nestedOfList member (SignatureType.self_mem_nested _))
  cases isLeft : left.receiver with
  | none =>
      cases isRight : right.receiver with
      | none => rfl
      | some receiver =>
          rw [isLeft, isRight] at same
          exact (present (isKnown rightKnown isRight) same.symm).elim
  | some receiver =>
      cases isRight : right.receiver with
      | none =>
          rw [isLeft, isRight] at same
          exact (present (isKnown leftKnown isLeft) same).elim
      | some receiver' =>
          rw [isLeft, isRight] at same
          exact congrArg some
            (legible.written_inj (isKnown leftKnown isLeft) (isKnown rightKnown isRight) same)

/-- The signature of legible types tells the receiver and the parameters. -/
theorem signature_inj {left right : CallableId} (leftKnown : left.types ⊆ types)
    (rightKnown : right.types ⊆ types) (same : left.signature = right.signature) :
    left.receiver = right.receiver ∧ left.params = right.params := by
  rw [← String.toList_inj, toList_signature, toList_signature] at same
  -- The first number sign ends the receiver, the others end all parameters but the last one.
  obtain ⟨sameReceiver, sameParams⟩ := Text.separated_inj (hash_notMem_receiver legible leftKnown)
    (hash_notMem_receiver legible rightKnown) same
  refine ⟨receiver_inj legible leftKnown rightKnown sameReceiver, ?_⟩
  refine eq_of_map_eq (fun param isParam other isOther => ?_) (Text.intercalated_inj
    (separable_params legible leftKnown) (separable_params legible rightKnown) sameParams)
  exact legible.written_inj (leftKnown (List.mem_append_right _ isParam))
    (rightKnown (List.mem_append_right _ isOther))

end

theorem compare_eq_iff {left right : CallableId} :
    compare left right = .eq ↔ left.name = right.name ∧ left.signature = right.signature := by
  change (compare left.name right.name).then (compare left.signature right.signature) = .eq ↔ _
  rw [Ordering.then_eq_eq, Std.LawfulEqOrd.compare_eq_iff_eq, Std.LawfulEqOrd.compare_eq_iff_eq]

end CallableId

namespace Dri

/-- The types in the signature of the callable. -/
def signatureTypes (dri : Dri) : List SignatureType :=
  (dri.callable.map CallableId.types).getD []

theorem compare_eq_iff {left right : Dri} :
    compare left right = .eq ↔
      left.packageName = right.packageName ∧ left.classNames = right.classNames ∧
        compare left.callable right.callable = .eq ∧ left.extra = right.extra := by
  change (compare left.packageName right.packageName).then
    ((compare left.classNames right.classNames).then
      ((compare left.callable right.callable).then (compare left.extra right.extra))) = .eq ↔ _
  simp only [Ordering.then_eq_eq, Std.LawfulEqOrd.compare_eq_iff_eq]

theorem signatureTypes_of_mem {dri : Dri} {callable : CallableId}
    (isCallable : callable ∈ dri.callable) : dri.signatureTypes = callable.types := by
  rw [signatureTypes, Option.mem_def.mp isCallable]
  rfl

/-- The order of identities with legible types tells them apart exactly as equality does, and their
signatures tell receivers and parameters. -/
theorem compare_eq_iff_of_legible {left right : Dri}
    (legible : SignatureType.AreLegible (left.signatureTypes ++ right.signatureTypes)) :
    (compare left right = .eq ↔ left = right) ∧
      ∀ callable ∈ left.callable, ∀ other ∈ right.callable,
        callable.signature = other.signature →
          callable.receiver = other.receiver ∧ callable.params = other.params := by
  have signatures : ∀ callable ∈ left.callable, ∀ other ∈ right.callable,
      callable.signature = other.signature →
        callable.receiver = other.receiver ∧ callable.params = other.params := by
    intro callable isCallable other isOther
    refine CallableId.signature_inj legible ?_ ?_
    · rw [← signatureTypes_of_mem isCallable]
      exact List.subset_append_left _ _
    · rw [← signatureTypes_of_mem isOther]
      exact List.subset_append_right _ _
  refine ⟨⟨fun tied => ?_, fun same => same ▸ Std.ReflCmp.compare_self⟩, signatures⟩
  obtain ⟨samePackage, sameClasses, callablesTied, sameExtra⟩ := compare_eq_iff.mp tied
  have sameCallable : left.callable = right.callable := by
    refine eq_of_compare_option (fun callable isCallable other isOther callablesTied => ?_)
      callablesTied
    obtain ⟨sameName, sameSignature⟩ := CallableId.compare_eq_iff.mp callablesTied
    obtain ⟨sameReceiver, sameParams⟩ :=
      signatures callable isCallable other isOther sameSignature
    cases callable
    cases other
    simp_all
  cases left
  cases right
  simp_all

/-- The extension `fill` of a generic class, whose parameters are a nullable map and a type
parameter. -/
def fillExtension (element : SignatureType) : Dri where
  packageName := some "shapes"
  callable := some
    { name := "fill"
      receiver := some (.constructor "shapes.Box" [element])
      params :=
        [.nullable (.constructor "Map" [.named "Key", .nullable (.constructor "List" [.star])]),
          .param "T"] }

/-- The two extensions differ only in how often the argument of the receiver is made nullable. -/
theorem compare_fillExtension :
    let left := fillExtension (.nullable (.param "T"))
    let right := fillExtension (.nullable (.nullable (.param "T")))
    SignatureType.AreLegible (left.signatureTypes ++ right.signatureTypes) ∧
      (compare left right = .eq ↔ left = right) ∧
      ∀ callable ∈ left.callable, ∀ other ∈ right.callable,
        callable.signature = other.signature →
          callable.receiver = other.receiver ∧ callable.params = other.params := by
  have legible : SignatureType.AreLegible
      ((fillExtension (.nullable (.param "T"))).signatureTypes ++
        (fillExtension (.nullable (.nullable (.param "T")))).signatureTypes) := by
    decide +kernel
  exact ⟨legible, compare_eq_iff_of_legible legible⟩

end Dri

end DocPages
