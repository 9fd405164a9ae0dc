import DocPages.Text.Splitting

/-!
# Laws of splitting

A separator that a part of a text does not hold ends that part, so texts that are put together with
the separator are told apart by their parts.
-/

namespace DocPages

namespace Text

variable {separator : Char} {left right rest others : List Char}

/-- A character sequence is cut at the separator that ends its first part. -/
theorem splitCharactersOnce_append (free : separator ∉ left) (rest : List Char) :
    splitCharactersOnce separator (left ++ separator :: rest) = some (left, rest) := by
  induction left with
  | nil => simp [splitCharactersOnce]
  | cons character left ih =>
      obtain ⟨different, free⟩ := not_or.mp (mt List.mem_cons.mpr free)
      rw [List.cons_append, splitCharactersOnce, if_neg (Ne.symm different), ih free]
      rfl

/-- A character sequence is cut where the separator stands first. -/
theorem splitCharactersOnce_eq_some_iff {text : List Char} :
    splitCharactersOnce separator text = some (left, right) ↔
      text = left ++ separator :: right ∧ separator ∉ left := by
  constructor
  · intro cut
    induction text generalizing left with
    | nil => cases cut
    | cons character text ih =>
        rw [splitCharactersOnce] at cut
        split at cut
        · rename_i here
          obtain ⟨rfl, rfl⟩ := Prod.mk.inj (Option.some.inj cut)
          exact ⟨congrArg (· :: text) here, List.not_mem_nil⟩
        · rename_i different
          obtain ⟨⟨before, behind⟩, isCut, same⟩ := Option.map_eq_some_iff.mp cut
          obtain ⟨rfl, rfl⟩ := Prod.mk.inj same
          obtain ⟨rfl, free⟩ := ih isCut
          exact ⟨rfl, List.not_mem_cons_of_ne_of_not_mem (Ne.symm different) free⟩
  · rintro ⟨rfl, free⟩
    exact splitCharactersOnce_append free right

/-- A text is cut where the separator stands first. -/
theorem splitOnce_eq_some_iff {text before behind : String} :
    splitOnce separator text = some (before, behind) ↔
      text = before ++ String.singleton separator ++ behind ∧ separator ∉ before.toList := by
  have written : text = before ++ String.singleton separator ++ behind ↔
      text.toList = before.toList ++ separator :: behind.toList := by
    rw [← String.toList_inj]
    simp
  rw [written, ← splitCharactersOnce_eq_some_iff, splitOnce, Option.map_eq_some_iff]
  constructor
  · rintro ⟨⟨left, right⟩, cut, same⟩
    obtain ⟨rfl, rfl⟩ := Prod.mk.inj same
    simpa using cut
  · intro cut
    exact ⟨_, cut, by simp⟩

/-- The parts before and after the first separator are those that were put together. -/
theorem separated_inj (leftFree : separator ∉ left) (rightFree : separator ∉ right)
    (same : left ++ separator :: rest = right ++ separator :: others) :
    left = right ∧ rest = others := by
  have parts := congrArg (splitCharactersOnce separator) same
  rw [splitCharactersOnce_append leftFree, splitCharactersOnce_append rightFree] at parts
  exact Prod.mk.inj (Option.some.inj parts)

/-- The parts before and after the last separator are those that were put together. -/
theorem separated_last_inj (restFree : separator ∉ rest) (othersFree : separator ∉ others)
    (same : left ++ separator :: rest = right ++ separator :: others) :
    left = right ∧ rest = others := by
  have reversed := congrArg List.reverse same
  simp only [List.reverse_append, List.reverse_cons, List.append_assoc, List.singleton_append]
    at reversed
  obtain ⟨sameRest, sameLeft⟩ := separated_inj (mt List.mem_reverse.mp restFree)
    (mt List.mem_reverse.mp othersFree) reversed
  exact ⟨List.reverse_inj.mp sameLeft, List.reverse_inj.mp sameRest⟩

/-- The name is not empty and has no mark in it. -/
def IsPlain (marks : List Char) (name : String) : Prop :=
  name ≠ "" ∧ ∀ character ∈ name.toList, character ∉ marks

-- The characters of the name are gone through, and not all characters that there are.
instance (marks : List Char) (name : String) : Decidable (IsPlain marks name) :=
  @instDecidableAnd _ _ _ (List.decidableBAll _ name.toList)

section

variable {marks : List Char} (leftPlain : ∀ character ∈ left, character ∉ marks)
  (rightPlain : ∀ character ∈ right, character ∉ marks)

include leftPlain rightPlain

/-- What stands before the first mark of a text is as long as can be. -/
theorem plain_append_inj (restMarked : ∀ character ∈ rest.head?, character ∈ marks)
    (othersMarked : ∀ character ∈ others.head?, character ∈ marks)
    (same : left ++ rest = right ++ others) : left = right ∧ rest = others := by
  have read : ∀ {plain marked : List Char}, (∀ character ∈ plain, character ∉ marks) →
      (∀ character ∈ marked.head?, character ∈ marks) →
        (plain ++ marked).takeWhile (fun character => decide (character ∉ marks)) = plain := by
    intro plain marked isPlain isMarked
    rw [List.takeWhile_append_of_pos (by simpa using isPlain)]
    cases marked with
    | nil => simp
    | cons mark more =>
        have : mark ∈ marks := isMarked mark rfl
        simp [this]
  have sameLeft : left = right := by
    rw [← read leftPlain restMarked, same, read rightPlain othersMarked]
  exact ⟨sameLeft, List.append_cancel_left (sameLeft ▸ same)⟩

/-- What stands behind the last mark of a text is as long as can be. -/
theorem append_plain_inj (restMarked : ∀ character ∈ rest.getLast?, character ∈ marks)
    (othersMarked : ∀ character ∈ others.getLast?, character ∈ marks)
    (same : rest ++ left = others ++ right) : rest = others ∧ left = right := by
  have reversed : left.reverse ++ rest.reverse = right.reverse ++ others.reverse := by
    rw [← List.reverse_append, same, List.reverse_append]
  obtain ⟨sameLeft, sameRest⟩ := plain_append_inj (by simpa using leftPlain)
    (by simpa using rightPlain) (by simpa using restMarked) (by simpa using othersMarked) reversed
  exact ⟨List.reverse_inj.mp sameRest, List.reverse_inj.mp sameLeft⟩

end

/-! ## Joined texts -/

/-- The parts of a joined text behind the first of them, and what follows the text. -/
def afterFirst (joint rest : List Char) : List (List Char) → List Char
  | [] => rest
  | next :: parts => joint ++ (joint.intercalate (next :: parts) ++ rest)

theorem intercalate_cons_append (joint first rest : List Char) (parts : List (List Char)) :
    joint.intercalate (first :: parts) ++ rest = first ++ afterFirst joint rest parts := by
  cases parts with
  | nil => simp [afterFirst]
  | cons next parts => simp [afterFirst, List.intercalate_cons_cons]

section

variable {α : Type} {write : α → List Char} {joint : List Char} {ends : List Char → Prop}
  (separates : ∀ more, ends (joint ++ more))

include separates

theorem ends_afterFirst (endsRest : ends rest) (parts : List (List Char)) :
    ends (afterFirst joint rest parts) := by
  cases parts with
  | nil => exact endsRest
  | cons next parts => exact separates _

/-- Parts that are told apart by what they start with are told apart by the text that joins them, if
what follows that text does not go on with a part. -/
theorem joined_inj {left right : List α} (present : left ≠ []) (present' : right ≠ [])
    (reads : ∀ part ∈ left, ∀ other ∈ right, ∀ ⦃rest others⦄, ends rest → ends others →
      write part ++ rest = write other ++ others → part = other ∧ rest = others)
    (endsRest : ends rest) (endsOthers : ends others)
    (stops : ∀ part ∈ right, ∀ more, joint ++ (write part ++ more) ≠ rest)
    (stops' : ∀ part ∈ left, ∀ more, joint ++ (write part ++ more) ≠ others)
    (same : joint.intercalate (left.map write) ++ rest =
      joint.intercalate (right.map write) ++ others) : left = right ∧ rest = others := by
  have stopsAfter : ∀ {rest : List Char} {next : α} {parts : List α},
      (∀ part ∈ next :: parts, ∀ more, joint ++ (write part ++ more) ≠ rest) →
        ∀ more, afterFirst joint more ((next :: parts).map write) ≠ rest := by
    intro rest next parts stops more
    rw [List.map_cons, afterFirst, intercalate_cons_append]
    exact stops next List.mem_cons_self _
  induction left generalizing right with
  | nil => exact (present rfl).elim
  | cons first left ih =>
      obtain ⟨first', right, rfl⟩ := List.exists_cons_of_ne_nil present'
      rw [List.map_cons, List.map_cons, intercalate_cons_append, intercalate_cons_append] at same
      obtain ⟨rfl, sameAfter⟩ := reads first List.mem_cons_self first' List.mem_cons_self
        (ends_afterFirst separates endsRest _) (ends_afterFirst separates endsOthers _) same
      have stopsRight := (List.forall_mem_cons.mp stops).2
      have stopsLeft := (List.forall_mem_cons.mp stops').2
      -- One side goes on with a part exactly if the other does.
      rcases left with _ | ⟨next, left⟩ <;> rcases right with _ | ⟨next', right⟩
      · exact ⟨rfl, sameAfter⟩
      · exact (stopsAfter stopsRight _ sameAfter.symm).elim
      · exact (stopsAfter stopsLeft _ sameAfter).elim
      · obtain ⟨sameParts, sameRest⟩ := ih (List.cons_ne_nil _ _) (List.cons_ne_nil _ _)
          (fun part isPart other isOther => reads part (List.mem_cons_of_mem _ isPart) other
            (List.mem_cons_of_mem _ isOther)) stopsRight stopsLeft
          (List.append_cancel_left sameAfter)
        exact ⟨congrArg _ sameParts, sameRest⟩

end

/-- Parts that are there and do not hold the separator are told apart by the text that joins
them. -/
theorem intercalated_inj {space : List Char} {left right : List (List Char)}
    (leftPlain : ∀ part ∈ left, part ≠ [] ∧ separator ∉ part)
    (rightPlain : ∀ part ∈ right, part ≠ [] ∧ separator ∉ part)
    (same : (separator :: space).intercalate left = (separator :: space).intercalate right) :
    left = right := by
  induction left generalizing right with
  | nil =>
      cases right with
      | nil => rfl
      | cons other right =>
          obtain ⟨⟨present, -⟩, -⟩ := List.forall_mem_cons.mp rightPlain
          cases right <;> simp_all
  | cons part left ih =>
      obtain ⟨⟨partPresent, partFree⟩, leftPlain⟩ := List.forall_mem_cons.mp leftPlain
      cases right with
      | nil => cases left <;> simp_all
      | cons other right =>
          obtain ⟨⟨-, otherFree⟩, rightPlain⟩ := List.forall_mem_cons.mp rightPlain
          -- Only a part that is not the last one is followed by the separator.
          rcases left with _ | ⟨next, left⟩ <;> rcases right with _ | ⟨later, right⟩
          · simpa using same
          · rw [List.intercalate_singleton, List.intercalate_cons_cons] at same
            exact (partFree (same ▸ by simp)).elim
          · rw [List.intercalate_singleton, List.intercalate_cons_cons] at same
            exact (otherFree (same ▸ by simp)).elim
          · simp only [List.intercalate_cons_cons, List.append_assoc, List.cons_append] at same
            obtain ⟨sameFirst, sameRest⟩ := separated_inj partFree otherFree same
            rw [sameFirst, ih leftPlain rightPlain
              (List.append_cancel_left sameRest)]

/-- A joined text holds nothing but the characters of its parts and of what joins them. -/
theorem notMem_intercalate {character : Char} {joint : List Char} {parts : List (List Char)}
    (jointFree : character ∉ joint) (partsFree : ∀ part ∈ parts, character ∉ part) :
    character ∉ joint.intercalate parts := by
  induction parts with
  | nil => simp
  | cons part parts ih =>
      obtain ⟨partFree, partsFree⟩ := List.forall_mem_cons.mp partsFree
      cases parts with
      | nil => simpa using partFree
      | cons next parts =>
          rw [List.intercalate_cons_cons]
          simp only [List.mem_append, not_or]
          exact ⟨⟨partFree, jointFree⟩, ih partsFree⟩

/-! ## Pieces -/

theorem splitCharacters_ne_nil (separator : Char) (text : List Char) :
    splitCharacters separator text ≠ [] := by
  cases text with
  | nil => exact List.cons_ne_nil [] []
  | cons character rest =>
      rw [splitCharacters]
      split
      · exact List.cons_ne_nil [character] []
      · split <;> exact List.cons_ne_nil _ _

/-- A separator starts a piece, and any other character belongs to the first piece. -/
theorem splitCharacters_cons (separator character : Char) (rest : List Char) :
    splitCharacters separator (character :: rest) =
      if character = separator then [] :: splitCharacters separator rest
      else (splitCharacters separator rest).modifyHead (character :: ·) := by
  obtain ⟨piece, pieces, pieced⟩ :=
    List.exists_cons_of_ne_nil (splitCharacters_ne_nil separator rest)
  simp only [splitCharacters, pieced, List.modifyHead_cons]

theorem splitCharacters_eq_splitOn (separator : Char) (text : List Char) :
    splitCharacters separator text = text.splitOn separator := by
  induction text with
  | nil => rfl
  | cons character rest ih =>
      rw [splitCharacters_cons, ih]
      simp only [List.splitOn, List.splitOnP_cons_eq_if_modifyHead, beq_iff_eq]

/-- The pieces of a text, with the separator between them, are the text. -/
theorem intercalate_splitCharacters (separator : Char) (text : List Char) :
    [separator].intercalate (splitCharacters separator text) = text := by
  rw [splitCharacters_eq_splitOn, List.intercalate_splitOn]

/-- Pieces without the separator are those of the text that joins them. -/
theorem splitCharacters_intercalate {pieces : List (List Char)} (present : pieces ≠ [])
    (free : ∀ piece ∈ pieces, separator ∉ piece) :
    splitCharacters separator ([separator].intercalate pieces) = pieces := by
  rw [splitCharacters_eq_splitOn, List.splitOn_intercalate separator free present]

/-- No piece holds the separator. -/
theorem notMem_of_mem_splitCharacters {text piece : List Char}
    (member : piece ∈ splitCharacters separator text) : separator ∉ piece := by
  induction text generalizing piece with
  | nil =>
      obtain rfl := List.mem_singleton.mp member
      exact List.not_mem_nil
  | cons character rest ih =>
      obtain ⟨first, pieces, pieced⟩ :=
        List.exists_cons_of_ne_nil (splitCharacters_ne_nil separator rest)
      rw [splitCharacters_cons, pieced] at member
      rw [pieced] at ih
      split at member
      · rcases List.mem_cons.mp member with rfl | later
        · exact List.not_mem_nil
        · exact ih later
      · rename_i different
        rcases List.mem_cons.mp member with rfl | later
        · exact List.not_mem_cons_of_ne_of_not_mem (Ne.symm different) (ih List.mem_cons_self)
        · exact ih (List.mem_cons_of_mem first later)

/-- A text that a separator parts has the pieces before it and those behind it. -/
theorem splitCharacters_append (separator : Char) (left right : List Char) :
    splitCharacters separator (left ++ separator :: right) =
      splitCharacters separator left ++ splitCharacters separator right := by
  rw [splitCharacters_eq_splitOn, splitCharacters_eq_splitOn, splitCharacters_eq_splitOn]
  exact List.splitOnP_append_cons left right (beq_self_eq_true separator)

/-- A text without the separator is its only piece. -/
theorem splitCharacters_of_notMem {text : List Char} (free : separator ∉ text) :
    splitCharacters separator text = [text] := by
  simpa using splitCharacters_intercalate (List.cons_ne_nil text [])
    (List.forall_mem_singleton.mpr free)

theorem split_ne_nil (separator : Char) (text : String) : split separator text ≠ [] :=
  mt List.map_eq_nil_iff.mp (splitCharacters_ne_nil separator text.toList)

theorem notMem_of_mem_split {text piece : String} (member : piece ∈ split separator text) :
    separator ∉ piece.toList := by
  obtain ⟨characters, isPiece, rfl⟩ := List.mem_map.mp member
  rw [String.toList_ofList]
  exact notMem_of_mem_splitCharacters isPiece

theorem intercalate_split (separator : Char) (text : String) :
    (String.singleton separator).intercalate (split separator text) = text := by
  rw [← String.toList_inj, String.toList_intercalate, split, String.toList_singleton, List.map_map]
  simpa [Function.comp_def] using intercalate_splitCharacters separator text.toList

theorem split_intercalate {pieces : List String} (present : pieces ≠ [])
    (free : ∀ piece ∈ pieces, separator ∉ piece.toList) :
    split separator ((String.singleton separator).intercalate pieces) = pieces := by
  rw [split, String.toList_intercalate, String.toList_singleton, splitCharacters_intercalate
    (mt List.map_eq_nil_iff.mp present) (List.forall_mem_map.mpr free), List.map_map]
  exact List.map_id'' (fun piece => String.ofList_toList) pieces

end Text

end DocPages
