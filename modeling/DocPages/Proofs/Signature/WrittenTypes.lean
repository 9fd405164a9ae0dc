import DocPages.Collection.Elementwise
import DocPages.Proofs.Text.Splitting

/-!
# Written types

The grammar of types as they stand in signatures: named types with their arguments, function types,
and nullable function types in parentheses. A receiver stands before a dot and so is a type that
ends by itself, while a function type goes on as far as its return type does. The grammar is
unambiguous: a type is told by its text, whatever follows it, as long as that does not go on with
the type.
-/

namespace DocPages

namespace Signature

/-- The characters that separate written types and their parts. -/
def marks : List Char := ['.', '<', '>', ',', '(', ')', '?']

/-- The segments of a qualified name, none of them empty or with a mark in it. -/
@[ext]
structure QualifiedName where
  segments : List String
  present : segments ≠ []
  plain : ∀ segment ∈ segments, Text.IsPlain marks segment

mutual

/-- A type as it is read. -/
inductive WrittenType where
  | atom (atom : WrittenAtom)
  /-- A function type without a receiver. -/
  | arrow (parameters : List WrittenType) (result : WrittenType)
  /-- A function type with a receiver. -/
  | extension (receiver : WrittenAtom) (parameters : List WrittenType) (result : WrittenType)

/-- A type that ends by itself. -/
inductive WrittenAtom where
  | named (name : QualifiedName) (arguments : List WrittenType) (isNullable : Bool)
  /-- A type in parentheses, made nullable. -/
  | nullable (function : WrittenType)

end

/-! ## Texts -/

namespace QualifiedName

/-- The segments joined with dots. -/
def text (name : QualifiedName) : List Char := ['.'].intercalate (name.segments.map String.toList)

end QualifiedName

/-- Written parameters in parentheses, an arrow, and the written result. -/
def arrowText (parameters : List (List Char)) (result : List Char) : List Char :=
  '(' :: [',', ' '].intercalate parameters ++ [')', ' ', '-', '>', ' '] ++ result

/-- Written arguments in angle brackets, if there are any. -/
def argumentText (arguments : List (List Char)) : List Char :=
  if arguments = [] then [] else '<' :: [',', ' '].intercalate arguments ++ ['>']

/-- The mark of a nullable named type. -/
def nullableText (isNullable : Bool) : List Char := if isNullable then ['?'] else []

mutual

/-- The text of a written type. -/
def WrittenType.text : WrittenType → List Char
  | .atom atom => atom.text
  | .arrow parameters result => arrowText (textsOfList parameters) result.text
  | .extension receiver parameters result =>
    receiver.text ++ '.' :: arrowText (textsOfList parameters) result.text

/-- The text of a written type that ends by itself. -/
def WrittenAtom.text : WrittenAtom → List Char
  | .named name arguments isNullable =>
    name.text ++ argumentText (textsOfList arguments) ++ nullableText isNullable
  | .nullable function => '(' :: function.text ++ [')', '?']

/-- The texts of the written types of a list. -/
def textsOfList : List WrittenType → List (List Char)
  | [] => []
  | head :: tail => head.text :: textsOfList tail

end

theorem textsOfList_eq_map (types : List WrittenType) :
    textsOfList types = types.map WrittenType.text :=
  eq_map_of_cons (by rw [textsOfList]) (fun _ _ => by rw [textsOfList]) types

/-- What holds of every type inside a written type holds of the written type. -/
theorem writtenInduction {motive : WrittenType → Prop} {atomMotive : WrittenAtom → Prop}
    (atom : ∀ atom, atomMotive atom → motive (.atom atom))
    (arrow : ∀ parameters result, (∀ parameter ∈ parameters, motive parameter) → motive result →
      motive (.arrow parameters result))
    (extension : ∀ receiver parameters result, atomMotive receiver →
      (∀ parameter ∈ parameters, motive parameter) → motive result →
        motive (.extension receiver parameters result))
    (named : ∀ name arguments isNullable, (∀ argument ∈ arguments, motive argument) →
      atomMotive (.named name arguments isNullable))
    (nullable : ∀ function, motive function → atomMotive (.nullable function))
    (type : WrittenType) : motive type :=
  @WrittenType.rec motive atomMotive (fun types => ∀ type ∈ types, motive type) atom arrow extension
    named nullable (fun _ member => nomatch member)
    (fun _ _ ofHead ofTail => List.forall_mem_cons.mpr ⟨ofHead, ofTail⟩) type

/-! ## What follows a type -/

variable {rest rest' : List Char}

/-- The characters that end a type in a list of types. -/
def closers : List Char := [',', ')', '>']

theorem mem_marks_of_mem_closers : ∀ character ∈ closers, character ∈ marks := by
  simp [closers, marks]

/-- What does not go on with a type: nothing, the next one of a list, or the end of the list. -/
def EndsType (rest : List Char) : Prop :=
  ∀ character ∈ rest.head?, character ∈ closers

/-- What does not go on with a type that ends by itself: also the dot after a receiver. -/
def EndsAtom (rest : List Char) : Prop :=
  EndsType rest ∨ ∃ more, rest = '.' :: '(' :: more

/-- What does not go on with a name: also arguments and the mark of a nullable type. -/
def EndsName (rest : List Char) : Prop :=
  EndsAtom rest ∨ ∃ character ∈ rest.head?, character ∈ ['<', '?']

theorem endsType_cons {character : Char} {more : List Char} :
    EndsType (character :: more) ↔ character ∈ closers := by
  simp [EndsType]

theorem endsAtom_cons {character : Char} {more : List Char} (ends : EndsAtom (character :: more)) :
    character ∈ '.' :: closers := by
  rcases ends with ends | ⟨others, isDot⟩
  · exact List.mem_cons_of_mem _ (endsType_cons.mp ends)
  · obtain ⟨rfl, -⟩ := List.cons.inj isDot
    decide

/-- A name ends at the end of the text or at a mark. -/
theorem EndsName.head_mem_marks (ends : EndsName rest) :
    ∀ character ∈ rest.head?, character ∈ marks := by
  have openers : ∀ character ∈ ['<', '?'], character ∈ marks := by simp [marks]
  intro character isHead
  rcases ends with (ends | ⟨more, rfl⟩) | ⟨opener, isOpener, member⟩
  · exact mem_marks_of_mem_closers _ (ends character isHead)
  · obtain rfl := Option.some.inj isHead
    decide
  · obtain rfl := Option.mem_unique isHead isOpener
    exact openers character member

/-! ## Names -/

namespace QualifiedName

/-- A dot that ends a name is followed by a parenthesis, with which no segment starts. -/
private theorem segment_ne (ends : EndsName rest) {segment : String}
    (plain : Text.IsPlain marks segment) (more : List Char) :
    ['.'] ++ (segment.toList ++ more) ≠ rest := by
  rintro rfl
  rcases ends with (ends | ⟨others, isDot⟩) | ⟨character, isHead, member⟩
  · exact absurd (endsType_cons.mp ends) (by decide)
  · obtain ⟨character, tail, isSegment⟩ :=
      List.exists_cons_of_ne_nil (mt String.toList_eq_nil_iff.mp plain.1)
    rw [isSegment] at isDot
    obtain ⟨rfl, -⟩ := List.cons.inj (List.cons.inj isDot).2
    exact plain.2 '(' (isSegment ▸ List.mem_cons_self) (by decide)
  · obtain rfl := Option.some.inj isHead
    exact absurd member (by decide)

/-- A name goes as far as its segments do. -/
theorem text_inj {left right : QualifiedName} (ends : EndsName rest) (ends' : EndsName rest')
    (same : left.text ++ rest = right.text ++ rest') : left = right ∧ rest = rest' := by
  let isMarked (rest : List Char) : Prop := ∀ character ∈ rest.head?, character ∈ marks
  have separates : ∀ more, isMarked (['.'] ++ more) := by simp [isMarked, marks]
  -- A segment without marks goes as far as the first mark.
  have reads : ∀ segment ∈ left.segments, ∀ other ∈ right.segments, ∀ ⦃rest rest'⦄,
      isMarked rest → isMarked rest' → segment.toList ++ rest = other.toList ++ rest' →
        segment = other ∧ rest = rest' := by
    intro segment isLeft other isRight rest rest' marked marked' same
    exact (Text.plain_append_inj (left.plain segment isLeft).2 (right.plain other isRight).2 marked
      marked' same).imp String.toList_inj.mp id
  obtain ⟨sameSegments, sameRest⟩ := Text.joined_inj separates left.present right.present reads
    ends.head_mem_marks ends'.head_mem_marks
    (fun segment isRight => segment_ne ends (right.plain segment isRight))
    (fun segment isLeft => segment_ne ends' (left.plain segment isLeft)) same
  exact ⟨QualifiedName.ext sameSegments, sameRest⟩

/-- A name starts with a character that is no mark. -/
theorem head_text (name : QualifiedName) :
    ∃ character more, name.text = character :: more ∧ character ∉ marks := by
  obtain ⟨first, segments, isName⟩ := List.exists_cons_of_ne_nil name.present
  obtain ⟨present, plain⟩ := name.plain first (isName ▸ List.mem_cons_self)
  obtain ⟨character, more, isFirst⟩ :=
    List.exists_cons_of_ne_nil (mt String.toList_eq_nil_iff.mp present)
  have whole := Text.intercalate_cons_append ['.'] first.toList [] (segments.map String.toList)
  rw [List.append_nil, isFirst, List.cons_append] at whole
  exact ⟨character, _, by rw [text, isName, List.map_cons, isFirst, whole],
    plain _ (isFirst ▸ List.mem_cons_self)⟩

end QualifiedName

theorem WrittenAtom.head_text (atom : WrittenAtom) :
    ∃ character more, atom.text = character :: more ∧ character ∉ closers := by
  cases atom with
  | named name arguments isNullable =>
      obtain ⟨character, more, isText, plain⟩ := name.head_text
      exact ⟨character, _, by rw [text, isText]; rfl, mt (mem_marks_of_mem_closers _) plain⟩
  | nullable function => exact ⟨'(', _, rfl, by decide⟩

/-- The text of a type starts with a name or with a parenthesis. -/
theorem WrittenType.head_text (type : WrittenType) :
    ∃ character more, type.text = character :: more ∧ character ∉ closers := by
  cases type with
  | atom atom => exact atom.head_text
  | arrow parameters result => exact ⟨'(', _, rfl, by decide⟩
  | extension receiver parameters result =>
      obtain ⟨character, more, isText, opens⟩ := receiver.head_text
      exact ⟨character, _, by rw [text, isText]; rfl, opens⟩

/-! ## Unambiguity -/

/-- The texts of the types are told apart wherever they start a text that does not go on with
them. -/
def WrittenType.IsReadAs (left right : WrittenType) : Prop :=
  ∀ ⦃rest rest' : List Char⦄, EndsType rest → EndsType rest' →
    left.text ++ rest = right.text ++ rest' → left = right ∧ rest = rest'

theorem WrittenType.IsReadAs.symm {left right : WrittenType} (reads : left.IsReadAs right) :
    right.IsReadAs left := fun _ _ ends ends' same =>
  (reads ends' ends same.symm).imp Eq.symm Eq.symm

/-- The texts of types that end by themselves are told apart wherever they start a text that does
not go on with them, and no such type is a function type. -/
structure WrittenAtom.IsRead (atom : WrittenAtom) : Prop where
  told : ∀ {other : WrittenAtom} {rest rest' : List Char}, EndsAtom rest → EndsAtom rest' →
    atom.text ++ rest = other.text ++ rest' → atom = other ∧ rest = rest'
  notArrow : ∀ {parameters : List WrittenType} {result rest rest' : List Char},
    atom.text ++ rest ≠ arrowText (textsOfList parameters) result ++ rest'

private theorem endsType_comma (more : List Char) : EndsType ([',', ' '] ++ more) :=
  endsType_cons.mpr List.mem_cons_self

/-- The mark that ends a list does not start a type. -/
private theorem joined_cons_ne {closer : Char} (closes : closer ∈ closers) (first : WrittenType)
    (types : List WrittenType) (rest rest' : List Char) :
    [',', ' '].intercalate (textsOfList (first :: types)) ++ closer :: rest ≠ closer :: rest' := by
  intro same
  obtain ⟨character, more, isText, opens⟩ := first.head_text
  rw [textsOfList, Text.intercalate_cons_append, isText, List.cons_append] at same
  exact opens ((List.cons.inj same).1 ▸ closes)

/-- A list of types is read from the first one to the last. -/
private theorem joinedTypes_inj {closer : Char} (closes : closer ∈ closers) (noComma : closer ≠ ',')
    {types others : List WrittenType} (reads : ∀ type ∈ types, ∀ other, type.IsReadAs other)
    (same : [',', ' '].intercalate (textsOfList types) ++ closer :: rest =
      [',', ' '].intercalate (textsOfList others) ++ closer :: rest') :
    types = others ∧ rest = rest' := by
  rcases types with _ | ⟨first, types⟩ <;> rcases others with _ | ⟨first', others⟩
  · exact ⟨rfl, (List.cons.inj same).2⟩
  · exact (joined_cons_ne closes first' others _ _ same.symm).elim
  · exact (joined_cons_ne closes first types _ _ same).elim
  · rw [textsOfList_eq_map, textsOfList_eq_map] at same
    have stops : ∀ {rest more : List Char}, [',', ' '] ++ more ≠ closer :: rest :=
      fun goesOn => noComma (List.cons.inj goesOn).1.symm
    obtain ⟨sameTypes, sameRest⟩ := Text.joined_inj endsType_comma (List.cons_ne_nil _ _)
      (List.cons_ne_nil _ _) (fun type isType other _ => reads type isType other)
      (endsType_cons.mpr closes) (endsType_cons.mpr closes) (fun _ _ _ => stops)
      (fun _ _ _ => stops) same
    exact ⟨sameTypes, (List.cons.inj sameRest).2⟩

/-- The parameters of a function type are told from a nullable type, which is closed by a question
mark. -/
private theorem arrowText_ne_nullable {parameters : List WrittenType} {function : WrittenType}
    (reads : ∀ parameter ∈ parameters, parameter.IsReadAs function)
    (result rest rest' : List Char) :
    arrowText (textsOfList parameters) result ++ rest ≠
      (WrittenAtom.nullable function).text ++ rest' := by
  intro same
  have inside : [',', ' '].intercalate (textsOfList parameters) ++
      ')' :: ([' ', '-', '>', ' '] ++ result ++ rest) = function.text ++ ')' :: '?' :: rest' := by
    simpa [arrowText, WrittenAtom.text] using same
  cases parameters with
  | nil =>
      obtain ⟨character, more, isText, opens⟩ := function.head_text
      rw [isText] at inside
      exact opens ((List.cons.inj inside).1 ▸ by decide)
  | cons first parameters =>
      rw [textsOfList, Text.intercalate_cons_append] at inside
      have closed : EndsType (')' :: ([' ', '-', '>', ' '] ++ result ++ rest)) :=
        endsType_cons.mpr (by decide)
      have sameAfter := (reads first List.mem_cons_self
        (Text.ends_afterFirst endsType_comma closed (textsOfList parameters))
        (endsType_cons.mpr (by decide)) inside).2
      cases parameters with
      | nil => simp [textsOfList, Text.afterFirst] at sameAfter
      | cons next parameters => simp [textsOfList, Text.afterFirst] at sameAfter

/-- The text of a function type is read from its parameters to its result. -/
private theorem arrowText_inj {parameters others : List WrittenType} {result result' : WrittenType}
    (readsParameters : ∀ parameter ∈ parameters, ∀ other, parameter.IsReadAs other)
    (readsResult : result.IsReadAs result') (ends : EndsType rest) (ends' : EndsType rest')
    (same : arrowText (textsOfList parameters) result.text ++ rest =
      arrowText (textsOfList others) result'.text ++ rest') :
    parameters = others ∧ result = result' ∧ rest = rest' := by
  have inside : [',', ' '].intercalate (textsOfList parameters) ++
      ')' :: ([' ', '-', '>', ' '] ++ (result.text ++ rest)) =
        [',', ' '].intercalate (textsOfList others) ++
          ')' :: ([' ', '-', '>', ' '] ++ (result'.text ++ rest')) := by
    simpa [arrowText] using same
  obtain ⟨sameParameters, sameAfter⟩ :=
    joinedTypes_inj (by decide) (by decide) readsParameters inside
  exact ⟨sameParameters, readsResult ends ends' (List.append_cancel_left sameAfter)⟩

/-- What follows the name of a type does not go on with the name. -/
private theorem endsName_afterName (arguments : List WrittenType) (isNullable : Bool)
    (ends : EndsAtom rest) :
    EndsName (argumentText (textsOfList arguments) ++ (nullableText isNullable ++ rest)) := by
  cases arguments with
  | nil =>
      cases isNullable with
      | false => exact .inl ends
      | true => exact .inr ⟨'?', rfl, by decide⟩
  | cons first arguments => exact .inr ⟨'<', rfl, by decide⟩

private theorem nullableText_inj {isNullable isNullable' : Bool} (ends : EndsAtom rest)
    (ends' : EndsAtom rest')
    (same : nullableText isNullable ++ rest = nullableText isNullable' ++ rest') :
    isNullable = isNullable' ∧ rest = rest' := by
  cases isNullable with
  | false =>
      cases isNullable' with
      | false => exact ⟨rfl, same⟩
      | true =>
          obtain rfl : rest = '?' :: rest' := same
          exact absurd (endsAtom_cons ends) (by decide)
  | true =>
      cases isNullable' with
      | false =>
          obtain rfl : '?' :: rest = rest' := same
          exact absurd (endsAtom_cons ends') (by decide)
      | true => exact ⟨rfl, (List.cons.inj same).2⟩

/-- Only arguments open an angle bracket behind a name. -/
private theorem argumentText_cons_ne {first : WrittenType} {arguments : List WrittenType}
    {isNullable : Bool} (ends : EndsAtom rest) (more : List Char) :
    argumentText (textsOfList (first :: arguments)) ++ more ≠ nullableText isNullable ++ rest := by
  intro same
  cases isNullable with
  | false =>
      obtain rfl : _ = rest := same
      exact absurd (endsAtom_cons ends) (by decide)
  | true => exact absurd (List.cons.inj same).1 (by decide)

private theorem afterName_inj {arguments others : List WrittenType}
    (reads : ∀ argument ∈ arguments, ∀ other, argument.IsReadAs other)
    {isNullable isNullable' : Bool} (ends : EndsAtom rest) (ends' : EndsAtom rest')
    (same : argumentText (textsOfList arguments) ++ (nullableText isNullable ++ rest) =
      argumentText (textsOfList others) ++ (nullableText isNullable' ++ rest')) :
    arguments = others ∧ isNullable = isNullable' ∧ rest = rest' := by
  rcases arguments with _ | ⟨first, arguments⟩ <;> rcases others with _ | ⟨first', others⟩
  · exact ⟨rfl, nullableText_inj ends ends' same⟩
  · exact (argumentText_cons_ne ends _ same.symm).elim
  · exact (argumentText_cons_ne ends' _ same).elim
  · have inside : [',', ' '].intercalate (textsOfList (first :: arguments)) ++
        '>' :: (nullableText isNullable ++ rest) =
          [',', ' '].intercalate (textsOfList (first' :: others)) ++
            '>' :: (nullableText isNullable' ++ rest') := by
      simpa [argumentText, textsOfList] using same
    obtain ⟨sameArguments, sameAfter⟩ := joinedTypes_inj (by decide) (by decide) reads inside
    exact ⟨sameArguments, nullableText_inj ends ends' sameAfter⟩

/-- No name starts with a parenthesis. -/
private theorem named_ne (name : QualifiedName) (arguments : List WrittenType) (isNullable : Bool)
    (rest more : List Char) :
    (WrittenAtom.named name arguments isNullable).text ++ rest ≠ '(' :: more := by
  intro same
  obtain ⟨character, others, isText, plain⟩ := name.head_text
  rw [WrittenAtom.text, isText] at same
  exact plain ((List.cons.inj same).1 ▸ by decide)

theorem WrittenAtom.isRead_named {name : QualifiedName} {arguments : List WrittenType}
    {isNullable : Bool} (reads : ∀ argument ∈ arguments, ∀ other, argument.IsReadAs other) :
    (named name arguments isNullable).IsRead where
  told {other _ _} ends ends' same := by
    cases other with
    | named name' others isNullable' =>
        simp only [text, List.append_assoc] at same
        obtain ⟨rfl, sameAfter⟩ := QualifiedName.text_inj (endsName_afterName arguments _ ends)
          (endsName_afterName others _ ends') same
        obtain ⟨rfl, rfl, sameRest⟩ := afterName_inj reads ends ends' sameAfter
        exact ⟨rfl, sameRest⟩
    | nullable function => exact (named_ne _ _ _ _ _ same).elim
  notArrow := named_ne _ _ _ _ _

theorem WrittenAtom.isRead_nullable {function : WrittenType}
    (reads : ∀ other, function.IsReadAs other) : (nullable function).IsRead where
  told {other rest rest'} ends ends' same := by
    cases other with
    | named name arguments isNullable => exact (named_ne _ _ _ _ _ same.symm).elim
    | nullable function' =>
        have inside :
            function.text ++ ')' :: '?' :: rest = function'.text ++ ')' :: '?' :: rest' := by
          simpa [text] using same
        obtain ⟨rfl, sameAfter⟩ := reads function' (endsType_cons.mpr (by decide))
          (endsType_cons.mpr (by decide)) inside
        exact ⟨rfl, by simpa using sameAfter⟩
  notArrow same := arrowText_ne_nullable (fun parameter _ => (reads parameter).symm) _ _ _ same.symm

theorem WrittenType.isReadAs_atom {atom : WrittenAtom} (reads : atom.IsRead) (other : WrittenType) :
    (WrittenType.atom atom).IsReadAs other := by
  intro rest rest' ends ends' same
  cases other with
  | atom atom' =>
      obtain ⟨rfl, sameRest⟩ := reads.told (.inl ends) (.inl ends') same
      exact ⟨rfl, sameRest⟩
  | arrow parameters result => exact (reads.notArrow same).elim
  | extension receiver parameters result =>
      -- The dot behind the receiver would have to follow the whole type.
      simp only [text, List.append_assoc] at same
      obtain ⟨-, rfl⟩ := reads.told (.inl ends) (.inr ⟨_, rfl⟩) same
      exact absurd (endsType_cons.mp ends) (by decide)

/-- The parameters of a function type are not those of a type that ends by itself. -/
theorem arrowText_ne_atom {parameters : List WrittenType}
    (reads : ∀ parameter ∈ parameters, ∀ other, parameter.IsReadAs other)
    (result : List Char) (atom : WrittenAtom) (rest rest' : List Char) :
    arrowText (textsOfList parameters) result ++ rest ≠ atom.text ++ rest' := by
  cases atom with
  | named name arguments isNullable => exact (named_ne _ _ _ _ _).symm
  | nullable function =>
      have readsFunction : ∀ parameter ∈ parameters, parameter.IsReadAs function :=
        fun parameter isParameter => reads parameter isParameter function
      exact arrowText_ne_nullable readsFunction _ _ _

theorem WrittenType.isReadAs_arrow {parameters : List WrittenType} {result : WrittenType}
    (readsParameters : ∀ parameter ∈ parameters, ∀ other, parameter.IsReadAs other)
    (readsResult : ∀ other, result.IsReadAs other) (other : WrittenType) :
    (arrow parameters result).IsReadAs other := by
  intro rest rest' ends ends' same
  cases other with
  | atom atom => exact (arrowText_ne_atom readsParameters _ _ _ _ same).elim
  | arrow others result' =>
      obtain ⟨rfl, rfl, sameRest⟩ :=
        arrowText_inj readsParameters (readsResult result') ends ends' same
      exact ⟨rfl, sameRest⟩
  | extension receiver others result' =>
      rw [text, text, List.append_assoc] at same
      exact (arrowText_ne_atom readsParameters _ _ _ _ same).elim

theorem WrittenType.isReadAs_extension {receiver : WrittenAtom} {parameters : List WrittenType}
    {result : WrittenType} (readsReceiver : receiver.IsRead)
    (readsParameters : ∀ parameter ∈ parameters, ∀ other, parameter.IsReadAs other)
    (readsResult : ∀ other, result.IsReadAs other) (other : WrittenType) :
    (extension receiver parameters result).IsReadAs other := by
  intro rest rest' ends ends' same
  rw [text, List.append_assoc, List.cons_append] at same
  cases other with
  | atom atom =>
      obtain ⟨-, isRest⟩ := readsReceiver.told (.inr ⟨_, rfl⟩) (.inl ends') same
      exact absurd (endsType_cons.mp (isRest ▸ ends')) (by decide)
  | arrow others result' => exact (readsReceiver.notArrow same).elim
  | extension receiver' others result' =>
      rw [text, List.append_assoc, List.cons_append] at same
      obtain ⟨rfl, sameAfter⟩ := readsReceiver.told (.inr ⟨_, rfl⟩) (.inr ⟨_, rfl⟩) same
      obtain ⟨rfl, rfl, sameRest⟩ := arrowText_inj readsParameters (readsResult result') ends ends'
        (List.cons.inj sameAfter).2
      exact ⟨rfl, sameRest⟩

/-- What a text starts with is read as one type only. -/
theorem WrittenType.isReadAs (type other : WrittenType) : type.IsReadAs other :=
  writtenInduction (fun _ => isReadAs_atom) (fun _ _ => isReadAs_arrow)
    (fun _ _ _ => isReadAs_extension) (fun _ _ _ => WrittenAtom.isRead_named)
    (fun _ => WrittenAtom.isRead_nullable) type other

/-- The grammar of written types is unambiguous. -/
theorem WrittenType.text_injective : Function.Injective WrittenType.text := by
  intro type other same
  have nothing : EndsType [] := fun character isHead => nomatch isHead
  exact (type.isReadAs other nothing nothing (congrArg (· ++ []) same)).1

end Signature

end DocPages
