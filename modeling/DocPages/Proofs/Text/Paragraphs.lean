import Mathlib.Data.List.Destutter
import Mathlib.Data.List.DropRight
import DocPages.Proofs.Text.Splitting
import DocPages.Text.Paragraphs

/-!
# Laws of paragraphs

Bringing a text in normal form works on its lines: the blanks at the end of each are dropped, of
neighbouring empty lines one is left, and the empty lines at both ends of the text go. So whatever
stands between two lines that are not blank is tidied on its own, and it stays as it is exactly if
it is tidy already.
-/

namespace DocPages

namespace Text

/-! ## Lines -/

/-- The blanks at the end of a character sequence are found from its end. -/
theorem dropTrailingBlanks_cons_congr {left right : List Char}
    (same : dropTrailingBlanks left = dropTrailingBlanks right) (character : Char) :
    dropTrailingBlanks (character :: left) = dropTrailingBlanks (character :: right) := by
  simp only [dropTrailingBlanks, List.reverse_cons, List.dropWhile_append,
    List.reverse_inj.mp same]

/-- The line feeds of a text cut it into its lines, but for blanks at their ends and empty lines at
the end of the text. -/
theorem trimmed_splitCharacters (text : List Char) :
    ∃ blank, (splitCharacters '\n' text).map dropTrailingBlanks =
      (lineCharacters text).map dropTrailingBlanks ++ blank ∧ ∀ line ∈ blank, line = [] := by
  fun_induction lineCharacters text with
  | case1 => exact ⟨[[]], rfl, by simp⟩
  | case2 rest ih =>
      obtain ⟨blank, same, isBlank⟩ := ih
      refine ⟨blank, ?_, isBlank⟩
      rw [splitCharacters_cons, if_pos rfl, List.map_cons, same]
      rfl
  | case3 rest ih =>
      obtain ⟨blank, same, isBlank⟩ := ih
      refine ⟨blank, ?_, isBlank⟩
      rw [splitCharacters_cons, splitCharacters_cons, if_pos rfl, if_neg (by decide),
        List.modifyHead_cons, List.map_cons, same]
      rfl
  -- Behind the last character there is no line, but a piece that may be blank.
  | case4 character rest noFeed _ nothing ih =>
      obtain ⟨blank, same, isBlank⟩ := ih
      obtain ⟨first, pieces, pieced⟩ :=
        List.exists_cons_of_ne_nil (splitCharacters_ne_nil '\n' rest)
      rw [pieced, nothing, List.map_cons, List.map_nil, List.nil_append] at same
      obtain ⟨nothingLeft, piecesBlank⟩ := List.forall_mem_cons.mp (same ▸ isBlank)
      have firstBlank : dropTrailingBlanks first = dropTrailingBlanks [] := nothingLeft
      refine ⟨pieces.map dropTrailingBlanks, ?_, piecesBlank⟩
      rw [splitCharacters_cons, if_neg noFeed, pieced,
        List.modifyHead_cons, List.map_cons, dropTrailingBlanks_cons_congr firstBlank]
      rfl
  | case5 character rest noFeed _ line lines lined ih =>
      obtain ⟨blank, same, isBlank⟩ := ih
      obtain ⟨first, pieces, pieced⟩ :=
        List.exists_cons_of_ne_nil (splitCharacters_ne_nil '\n' rest)
      rw [pieced, lined, List.map_cons, List.map_cons, List.cons_append] at same
      obtain ⟨sameFirst, sameLines⟩ := List.cons.inj same
      refine ⟨blank, ?_, isBlank⟩
      rw [splitCharacters_cons, if_neg noFeed, pieced,
        List.modifyHead_cons, List.map_cons, sameLines, dropTrailingBlanks_cons_congr sameFirst]
      rfl

/-- The lines of a text without the blanks at their ends. -/
def trimmedLines (text : String) : List String := (split '\n' text).map trimEnd

theorem trimmedLines_append (before after : String) :
    trimmedLines (before ++ "\n" ++ after) = trimmedLines before ++ trimmedLines after := by
  have cut : (before ++ "\n" ++ after).toList = before.toList ++ '\n' :: after.toList := by simp
  simp only [trimmedLines, split, cut, splitCharacters_append, List.map_append]

/-- The lines that paragraphs are made of are those between line feeds. -/
theorem exists_trimmedLines_eq (text : String) :
    ∃ blank, trimmedLines text = (lines text).map trimEnd ++ blank ∧ ∀ line ∈ blank, line = "" := by
  have trim : ∀ characters : List (List Char), (characters.map String.ofList).map trimEnd =
      (characters.map dropTrailingBlanks).map String.ofList := by
    intro characters
    simp only [List.map_map]
    exact List.map_congr_left fun line _ => congrArg String.ofList
      (congrArg dropTrailingBlanks String.toList_ofList)
  obtain ⟨blank, same, isBlank⟩ := trimmed_splitCharacters text.toList
  refine ⟨blank.map String.ofList, ?_, ?_⟩
  · rw [trimmedLines, split, lines, trim, trim, same, List.map_append]
  · simpa using isBlank

/-! ## Runs of empty lines -/

/-- At least one of two neighbouring lines is not empty. -/
def NotBothEmpty (before line : String) : Prop := before ≠ "" ∨ line ≠ ""

instance : DecidableRel NotBothEmpty := fun before line =>
  inferInstanceAs (Decidable (before ≠ "" ∨ line ≠ ""))

/-- The lines with one empty line in place of neighbouring ones. -/
def collapseBlankLines (lines : List String) : List String := lines.destutter NotBothEmpty

/-- The lines of the paragraphs, each paragraph with an empty line in front. The first one has none
if no empty line stands before it. -/
def spacedLines (lines : List String) : List String :=
  (splitParagraphs lines).1 ++ (splitParagraphs lines).2.flatMap ("" :: ·)

theorem collapseBlankLines_empty_empty (lines : List String) :
    collapseBlankLines ("" :: "" :: lines) = collapseBlankLines ("" :: lines) :=
  List.destutter'_cons_neg (R := NotBothEmpty) (b := "") (a := "") lines (by decide)

theorem spacedLines_empty_empty (lines : List String) :
    spacedLines ("" :: "" :: lines) = spacedLines ("" :: lines) := rfl

section

variable {line : String} (present : line ≠ "")

include present

theorem splitParagraphs_cons (lines : List String) :
    splitParagraphs (line :: lines) =
      (line :: (splitParagraphs lines).1, (splitParagraphs lines).2) := by
  simp only [splitParagraphs, String.isEmpty_iff, if_neg present]

theorem collapseBlankLines_cons (lines : List String) :
    collapseBlankLines (line :: lines) = line :: collapseBlankLines lines := by
  cases lines with
  | nil => rfl
  | cons next lines => exact List.destutter'_cons_pos lines (.inl present)

theorem spacedLines_cons (lines : List String) :
    spacedLines (line :: lines) = line :: spacedLines lines := by
  rw [spacedLines, splitParagraphs_cons present]
  rfl

theorem collapseBlankLines_empty_cons (lines : List String) :
    collapseBlankLines ("" :: line :: lines) = "" :: collapseBlankLines (line :: lines) :=
  List.destutter'_cons_pos lines (.inr present)

theorem spacedLines_empty_cons (lines : List String) :
    spacedLines ("" :: line :: lines) = "" :: spacedLines (line :: lines) := by
  rw [spacedLines, splitParagraphs, spacedLines, splitParagraphs_cons present]
  rfl

/-- Of the empty lines before a line that is not empty, one is left. -/
theorem spacedLines_append_cons (lines rest : List String) :
    spacedLines (lines ++ line :: rest) = collapseBlankLines lines ++ line :: spacedLines rest := by
  induction lines with
  | nil => exact spacedLines_cons present rest
  | cons head lines ih =>
      by_cases headPresent : head ≠ ""
      · rw [List.cons_append, spacedLines_cons headPresent, ih, collapseBlankLines_cons headPresent]
        rfl
      · obtain rfl := not_not.mp headPresent
        -- What becomes of an empty line depends on the line behind it.
        cases lines with
        | nil =>
            rw [List.singleton_append, spacedLines_empty_cons present, spacedLines_cons present]
            rfl
        | cons next lines =>
            by_cases nextPresent : next ≠ ""
            · rw [List.cons_append, List.cons_append, spacedLines_empty_cons nextPresent,
                ← List.cons_append, ih, collapseBlankLines_empty_cons nextPresent]
              rfl
            · obtain rfl := not_not.mp nextPresent
              rw [List.cons_append, List.cons_append, spacedLines_empty_empty, ← List.cons_append,
                ih, collapseBlankLines_empty_empty]

end

/-! ## Texts of lines -/

/-- The text of some lines, each with its line feed. -/
def linesText (lines : List String) : String := String.join (lines.map (· ++ "\n"))

theorem linesText_append (before after : List String) :
    linesText (before ++ after) = linesText before ++ linesText after := by
  rw [linesText, List.map_append, String.join_append]
  rfl

theorem linesText_cons (line : String) (lines : List String) :
    linesText (line :: lines) = line ++ "\n" ++ linesText lines := by
  rw [linesText, List.map_cons, String.join_cons]
  rfl

/-- Two line feeds end a line and leave the next one empty. -/
theorem emptyLine_eq : "\n\n" = "\n" ++ "\n" := by decide

theorem linesText_eq_intercalate {lines : List String} (present : lines ≠ []) :
    linesText lines = String.intercalate "\n" lines ++ "\n" := by
  induction lines with
  | nil => exact (present rfl).elim
  | cons line lines ih =>
      rw [linesText_cons]
      cases lines with
      | nil =>
          rw [String.intercalate_singleton]
          exact String.append_empty
      | cons next lines =>
          rw [ih (List.cons_ne_nil _ _), String.intercalate_cons_of_ne_nil (List.cons_ne_nil _ _)]
          simp only [String.append_assoc]

/-- A paragraph has lines, and none of them is empty. -/
def IsParagraph (lines : List String) : Prop := lines ≠ [] ∧ "" ∉ lines

theorem splitParagraphs_spec (lines : List String) :
    "" ∉ (splitParagraphs lines).1 ∧
      ∀ paragraph ∈ (splitParagraphs lines).2, IsParagraph paragraph := by
  induction lines with
  | nil => exact ⟨List.not_mem_nil, fun _ => nofun⟩
  | cons line lines ih =>
      obtain ⟨firstFull, others⟩ := ih
      by_cases present : line ≠ ""
      · rw [splitParagraphs_cons present]
        exact ⟨List.not_mem_cons_of_ne_of_not_mem (Ne.symm present) firstFull, others⟩
      · obtain rfl := not_not.mp present
        refine ⟨List.not_mem_nil, ?_⟩
        change ∀ paragraph ∈ addParagraph _ _, IsParagraph paragraph
        cases isFirst : (splitParagraphs lines).1 with
        | nil => exact others
        | cons head tail =>
            have isParagraph : IsParagraph (head :: tail) :=
              ⟨List.cons_ne_nil head tail, isFirst ▸ firstFull⟩
            exact List.forall_mem_cons.mpr ⟨isParagraph, others⟩

theorem dropWhile_append_cons {line : String} (present : line ≠ "") (lines rest : List String) :
    (lines ++ line :: rest).dropWhile String.isEmpty =
      lines.dropWhile String.isEmpty ++ line :: rest := by
  have stops : ¬line.isEmpty := mt String.isEmpty_iff.mp present
  rw [List.dropWhile_append, List.dropWhile_cons_of_neg stops]
  split
  · rename_i nothing
    rw [List.isEmpty_iff.mp nothing, List.nil_append]
  · rfl

theorem IsParagraph.dropWhile_append {paragraph : List String} (isParagraph : IsParagraph paragraph)
    (rest : List String) :
    (paragraph ++ rest).dropWhile String.isEmpty = paragraph ++ rest := by
  obtain ⟨present, full⟩ := isParagraph
  obtain ⟨line, lines, rfl⟩ := List.exists_cons_of_ne_nil present
  exact dropWhile_append_cons (List.ne_of_not_mem_cons full).symm [] (lines ++ rest)

theorem ofParagraphs_cons {first : List String} {others : List (List String)}
    (isFirst : IsParagraph first) (areOthers : ∀ paragraph ∈ others, IsParagraph paragraph) :
    ofParagraphs (first :: others) = linesText (first ++ others.flatMap ("" :: ·)) := by
  induction others generalizing first with
  | nil =>
      rw [ofParagraphs, List.map_singleton, String.intercalate_singleton, List.flatMap_nil,
        List.append_nil, linesText_eq_intercalate isFirst.1]
      exact List.cons_ne_nil first []
  | cons next others ih =>
      obtain ⟨isNext, areOthers⟩ := List.forall_mem_cons.mp areOthers
      calc ofParagraphs (first :: next :: others)
          = String.intercalate "\n" first ++ "\n\n" ++ ofParagraphs (next :: others) := by
            rw [ofParagraphs, ofParagraphs, List.map_cons, String.intercalate_cons_of_ne_nil,
              String.append_assoc]
            all_goals exact List.cons_ne_nil _ _
        _ = linesText first ++ linesText ("" :: (next ++ others.flatMap ("" :: ·))) := by
            rw [ih isNext areOthers, linesText_eq_intercalate isFirst.1, linesText_cons,
              String.empty_append, emptyLine_eq]
            simp only [String.append_assoc]
        _ = linesText (first ++ (next :: others).flatMap ("" :: ·)) := by
            rw [← linesText_append]
            rfl

/-- The paragraphs of some lines as lines: those that are left, from the first that is not empty. -/
theorem ofParagraphs_paragraphs (lines : List String) :
    ofParagraphs (paragraphs lines) = linesText ((spacedLines lines).dropWhile String.isEmpty) := by
  obtain ⟨full, others⟩ := splitParagraphs_spec lines
  rw [paragraphs, spacedLines]
  generalize splitParagraphs lines = parts at full others
  obtain ⟨first, rest⟩ := parts
  cases first with
  | cons line first =>
      have isFirst : IsParagraph (line :: first) := ⟨List.cons_ne_nil line first, full⟩
      rw [isFirst.dropWhile_append]
      exact ofParagraphs_cons isFirst others
  | nil =>
      cases rest with
      | nil => rfl
      | cons second rest =>
          obtain ⟨isSecond, others⟩ := List.forall_mem_cons.mp others
          have dropped : ((second :: rest).flatMap ("" :: ·)).dropWhile String.isEmpty =
              second ++ rest.flatMap ("" :: ·) := isSecond.dropWhile_append _
          rw [List.nil_append, dropped]
          exact ofParagraphs_cons isSecond others

theorem splitParagraphs_append_blank (lines : List String) {blank : List String}
    (isBlank : ∀ line ∈ blank, line = "") :
    splitParagraphs (lines ++ blank) = splitParagraphs lines := by
  induction lines with
  | cons line lines ih => rw [List.cons_append, splitParagraphs, ih, splitParagraphs]
  | nil =>
      induction blank with
      | nil => rfl
      | cons line blank ih =>
          obtain ⟨rfl, restBlank⟩ := List.forall_mem_cons.mp isBlank
          have ended : splitParagraphs blank = ([], []) := ih restBlank
          change splitParagraphs ("" :: blank) = ([], [])
          rw [splitParagraphs, ended]
          rfl

/-- A text in normal form consists of its lines without the blanks at their ends, with one empty
line in place of neighbouring ones, and from the first to the last that is not empty. -/
theorem normalizeBlankLines_eq (text : String) :
    normalizeBlankLines text =
      linesText ((spacedLines (trimmedLines text)).dropWhile String.isEmpty) := by
  obtain ⟨blank, same, isBlank⟩ := exists_trimmedLines_eq text
  rw [normalizeBlankLines, ofParagraphs_paragraphs, spacedLines, spacedLines, same,
    splitParagraphs_append_blank _ isBlank]

/-! ## Tidy texts -/

/-- No line of the text ends with a blank, and no two empty lines follow each other. -/
structure IsTidy (text : String) : Prop where
  trimmed : ∀ line ∈ split '\n' text, trimEnd line = line
  spaced : (split '\n' text).IsChain NotBothEmpty

/-- The text without blanks at the ends of its lines, and with one empty line in place of
neighbouring ones. -/
def tidied (text : String) : String :=
  String.intercalate "\n" (collapseBlankLines (trimmedLines text))

theorem collapseBlankLines_trimmedLines_ne_nil (text : String) :
    collapseBlankLines (trimmedLines text) ≠ [] := by
  rw [collapseBlankLines, ne_eq, List.destutter_eq_nil, trimmedLines, List.map_eq_nil_iff]
  exact split_ne_nil '\n' text

theorem split_tidied (text : String) :
    split '\n' (tidied text) = collapseBlankLines (trimmedLines text) := by
  refine split_intercalate (collapseBlankLines_trimmedLines_ne_nil text) fun line isLine => ?_
  obtain ⟨piece, isPiece, rfl⟩ :=
    List.mem_map.mp ((List.destutter_sublist NotBothEmpty (trimmedLines text)).subset isLine)
  rw [trimEnd, String.toList_ofList]
  exact mt (fun member => (List.rdropWhile_prefix isBlank piece.toList).subset member)
    (notMem_of_mem_split isPiece)

/-- A text stays as it is exactly if it is tidy. -/
theorem tidied_eq_self_iff {text : String} : tidied text = text ↔ IsTidy text := by
  constructor
  · intro same
    have kept : collapseBlankLines (trimmedLines text) = split '\n' text := by
      rw [← split_tidied, same]
    -- No line is gone, so every line is as it was.
    have uncollapsed : collapseBlankLines (trimmedLines text) = trimmedLines text :=
      (List.destutter_sublist NotBothEmpty (trimmedLines text)).eq_of_length
        (by rw [← collapseBlankLines, kept, trimmedLines, List.length_map])
    have trimmed : (split '\n' text).map trimEnd = (split '\n' text).map id := by
      rw [List.map_id, ← trimmedLines, ← uncollapsed, kept]
    refine ⟨List.map_inj_left.mp trimmed, ?_⟩
    rw [← kept]
    exact List.isChain_destutter NotBothEmpty (trimmedLines text)
  · rintro ⟨trimmed, spaced⟩
    have sameLines : trimmedLines text = split '\n' text := by
      rw [trimmedLines, List.map_congr_left trimmed, List.map_id']
    rw [tidied, sameLines, collapseBlankLines, List.destutter_of_isChain _ _ spaced]
    exact intercalate_split '\n' text

/-! ## Texts between two lines -/

/-- No blanks are in the text. -/
def IsUnbroken (text : String) : Prop := ∀ character ∈ text.toList, isBlank character = false

-- The characters of the text are gone through, and not all characters that there are.
instance (text : String) : Decidable (IsUnbroken text) := List.decidableBAll _ text.toList

/-- The text is a line that is there, and no blanks are in it. -/
def IsSolid (line : String) : Prop := line ≠ "" ∧ IsUnbroken line

theorem IsSolid.trimmedLines_eq {line : String} (solid : IsSolid line) :
    trimmedLines line = [line] := by
  obtain ⟨-, unbroken⟩ := solid
  have noFeed : '\n' ∉ line.toList := fun member => absurd (unbroken '\n' member) (by decide)
  have kept : line.toList.rdropWhile isBlank = line.toList :=
    List.rdropWhile_eq_self_iff.mpr fun present => by
      simpa using unbroken _ (List.getLast_mem present)
  have trimmed : trimEnd line = line := by
    rw [trimEnd, dropTrailingBlanks, ← List.rdropWhile, kept, String.ofList_toList]
  rw [trimmedLines, split, splitCharacters_of_notMem noFeed, List.map_singleton,
    List.map_singleton, String.ofList_toList, trimmed]

/-- The text is empty or ends with a line feed, so that a line starts behind it. -/
def AtLineStart (before : String) : Prop := before = "" ∨ ∃ front, before = front ++ "\n"

theorem AtLineStart.append {before after : String} (isBefore : AtLineStart before)
    (isAfter : AtLineStart after) : AtLineStart (before ++ after) := by
  rcases isAfter with rfl | ⟨front, rfl⟩
  · rwa [String.append_empty]
  · exact .inr ⟨before ++ front, String.append_assoc.symm⟩

theorem atLineStart_join {texts : List String} (each : ∀ text ∈ texts, AtLineStart text) :
    AtLineStart (String.join texts) := by
  induction texts with
  | nil => exact .inl rfl
  | cons text texts ih =>
      obtain ⟨first, others⟩ := List.forall_mem_cons.mp each
      rw [String.join_cons]
      exact first.append (ih others)

theorem atLineStart_linesText (lines : List String) : AtLineStart (linesText lines) :=
  atLineStart_join (List.forall_mem_map.mpr fun line _ => .inr ⟨line, rfl⟩)

theorem AtLineStart.exists_trimmedLines {before : String} (isBefore : AtLineStart before) :
    ∃ lines, ∀ text, trimmedLines (before ++ text) = lines ++ trimmedLines text := by
  rcases isBefore with rfl | ⟨front, rfl⟩
  · exact ⟨[], fun text => by rw [String.empty_append, List.nil_append]⟩
  · exact ⟨trimmedLines front, trimmedLines_append front⟩

/-- The body is the text between two lines. -/
def HasBetween (text opening body closing : String) : Prop :=
  ∃ front back, AtLineStart front ∧
    text = front ++ opening ++ "\n" ++ body ++ "\n" ++ closing ++ "\n" ++ back

theorem HasBetween.isInfix {text opening body closing : String}
    (between : HasBetween text opening body closing) :
    (opening ++ "\n" ++ body ++ "\n" ++ closing).toList <:+: text.toList := by
  obtain ⟨front, back, -, rfl⟩ := between
  refine ⟨front.toList, ("\n" ++ back).toList, ?_⟩
  simp only [← String.toList_append, String.append_assoc]

theorem HasBetween.surround {text opening body closing : String}
    (between : HasBetween text opening body closing) {before : String}
    (isBefore : AtLineStart before) (after : String) :
    HasBetween (before ++ text ++ after) opening body closing := by
  obtain ⟨front, back, isFront, rfl⟩ := between
  refine ⟨before ++ front, back ++ after, isBefore.append isFront, ?_⟩
  simp only [String.append_assoc]

/-- The text between two lines without blanks is tidied on its own. -/
theorem HasBetween.normalizeBlankLines {text opening body closing : String}
    (between : HasBetween text opening body closing) (opens : IsSolid opening)
    (closes : IsSolid closing) :
    HasBetween (normalizeBlankLines text) opening (tidied body) closing := by
  obtain ⟨front, back, isFront, rfl⟩ := between
  obtain ⟨lines, cut⟩ := isFront.exists_trimmedLines
  have ended : linesText (collapseBlankLines (trimmedLines body)) = tidied body ++ "\n" :=
    linesText_eq_intercalate (collapseBlankLines_trimmedLines_ne_nil body)
  have whole : trimmedLines (front ++ opening ++ "\n" ++ body ++ "\n" ++ closing ++ "\n" ++ back) =
      lines ++ opening :: (trimmedLines body ++ closing :: trimmedLines back) := by
    rw [trimmedLines_append, trimmedLines_append, trimmedLines_append, cut,
      opens.trimmedLines_eq, closes.trimmedLines_eq]
    simp only [List.append_assoc, List.cons_append, List.nil_append]
  refine ⟨linesText ((collapseBlankLines lines).dropWhile String.isEmpty),
    linesText (spacedLines (trimmedLines back)), atLineStart_linesText _, ?_⟩
  rw [normalizeBlankLines_eq, whole, spacedLines_append_cons opens.1,
    spacedLines_append_cons closes.1, dropWhile_append_cons opens.1, linesText_append,
    linesText_cons, linesText_append, linesText_cons, ended]
  simp only [String.append_assoc]

end Text

end DocPages
