import DocPages.Proofs.Text.Visible

/-!
# The normal form of a text

The lines of a text that are not blank come in runs with blank lines in between. In normal form the
text has the same runs with trimmed lines, and one empty line parts a run from the next. So the
normal form of a text is read off its runs, and a text in normal form has it already.
-/

namespace DocPages

namespace Text

/-! ## Blank lines and trimmed lines -/

/-- The line does not end with a blank. -/
def IsTrimmed (line : String) : Prop :=
  ∀ character ∈ line.toList.getLast?, isBlank character = false

theorem trimEnd_eq_empty_iff {line : String} : trimEnd line = "" ↔ isAllBlank line := by
  rw [trimEnd, ← String.toList_inj, String.toList_ofList, String.toList_empty, isAllBlank,
    List.all_eq_true]
  exact List.rdropWhile_eq_nil_iff

theorem isTrimmed_trimEnd (line : String) : IsTrimmed (trimEnd line) := by
  intro character isLast
  rw [trimEnd, String.toList_ofList] at isLast
  obtain ⟨present, rfl⟩ := List.mem_getLast?_eq_getLast isLast
  exact Bool.eq_false_iff.mpr (List.rdropWhile_last_not isBlank line.toList present)

theorem IsTrimmed.trimEnd_eq {line : String} (trimmed : IsTrimmed line) : trimEnd line = line := by
  have kept : dropTrailingBlanks line.toList = line.toList :=
    List.rdropWhile_eq_self_iff.mpr fun present => by
      simpa using trimmed _ (List.getLast?_eq_some_getLast present)
  rw [trimEnd, kept, String.ofList_toList]

theorem map_trimEnd_eq_self {lines : List String} (trimmed : ∀ line ∈ lines, IsTrimmed line) :
    lines.map trimEnd = lines := by
  rw [List.map_congr_left fun line isLine => (trimmed line isLine).trimEnd_eq, List.map_id']

/-- Of the trimmed lines only the empty one is blank. -/
theorem IsTrimmed.isAllBlank_eq {line : String} (trimmed : IsTrimmed line) :
    isAllBlank line = decide (line = "") := by
  rw [Bool.eq_iff_iff, ← trimEnd_eq_empty_iff, trimmed.trimEnd_eq, decide_eq_true_iff]

/-- A character that does not end a line, alone or with the line feed behind it, stands in the first
line. -/
private theorem lineCharacters_cons {character : Char} {behind line : List Char}
    {others : List (List Char)} (noFeed : character ≠ '\n')
    (noReturn : character = '\r' → '\n' ∉ behind.head?)
    (lined : lineCharacters behind = line :: others) :
    lineCharacters (character :: behind) = (character :: line) :: others := by
  rw [lineCharacters, lined]
  · exact noFeed
  · rintro rest isReturn rfl
    exact noReturn isReturn rfl

/-- A line that does not end with a carriage return ends where the line feed stands. -/
theorem lineCharacters_append {line : List Char} (free : '\n' ∉ line)
    (noReturn : '\r' ∉ line.getLast?) (rest : List Char) :
    lineCharacters (line ++ '\n' :: rest) = line :: lineCharacters rest := by
  induction line with
  | nil => rfl
  | cons character line ih =>
      obtain ⟨noFeed, free⟩ := List.ne_and_not_mem_of_not_mem_cons free
      cases line with
      | nil =>
          refine lineCharacters_cons noFeed.symm (fun isReturn => ?_) rfl
          exact (noReturn (isReturn ▸ rfl)).elim
      | cons next line =>
          refine lineCharacters_cons noFeed.symm (fun _ => ?_) (ih free noReturn)
          simpa [eq_comm] using List.ne_of_not_mem_cons free

theorem lines_linesText {texts : List String} (free : ∀ line ∈ texts, '\n' ∉ line.toList)
    (trimmed : ∀ line ∈ texts, IsTrimmed line) : lines (linesText texts) = texts := by
  induction texts with
  | nil => rfl
  | cons line texts ih =>
      obtain ⟨lineFree, free⟩ := List.forall_mem_cons.mp free
      obtain ⟨lineTrimmed, trimmed⟩ := List.forall_mem_cons.mp trimmed
      have noReturn : '\r' ∉ line.toList.getLast? := fun isLast =>
        absurd (lineTrimmed '\r' isLast) (by decide)
      have characters : (linesText (line :: texts)).toList =
          line.toList ++ '\n' :: (linesText texts).toList := by
        simp [linesText_cons]
      rw [lines, characters, lineCharacters_append lineFree noReturn, List.map_cons,
        String.ofList_toList]
      exact congrArg (line :: ·) (ih free trimmed)

/-! ## Runs of lines -/

/-- The lines that are not blank. -/
def filledLines (lines : List String) : List String := lines.filter (!isAllBlank ·)

/-- The runs of lines that are not blank: two neighbours among these lines stand in one run exactly
if no blank line is between them. -/
def filledRuns (lines : List String) : List (List String) :=
  (lines.splitOnP isAllBlank).filter (!·.isEmpty)

/-- The runs hold the lines that are not blank, in their order. -/
theorem flatten_filledRuns (lines : List String) :
    (filledRuns lines).flatten = filledLines lines := by
  rw [filledRuns, List.flatten_filter_not_isEmpty]
  induction lines with
  | nil => rfl
  | cons line lines ih =>
      obtain ⟨first, pieces, pieced⟩ :=
        List.exists_cons_of_ne_nil (List.splitOnP_ne_nil isAllBlank lines)
      rw [pieced] at ih
      rw [List.splitOnP_cons_eq_if_modifyHead, filledLines, List.filter_cons, pieced]
      cases isAllBlank line with
      | true => exact ih
      | false => exact congrArg (line :: ·) ih

private theorem addParagraph_filter (lines : List String) (pieces : List (List String)) :
    addParagraph lines (pieces.filter (!·.isEmpty)) = (lines :: pieces).filter (!·.isEmpty) := by
  cases lines <;> rfl

private theorem splitOn_eq_splitParagraphs (lines : List String) :
    ∃ pieces, lines.splitOn "" = (splitParagraphs lines).1 :: pieces ∧
      (splitParagraphs lines).2 = pieces.filter (!·.isEmpty) := by
  induction lines with
  | nil => exact ⟨[], rfl, rfl⟩
  | cons line lines ih =>
      obtain ⟨pieces, pieced, others⟩ := ih
      rw [List.splitOn] at pieced ⊢
      rw [List.splitOnP_cons_eq_if_modifyHead, pieced]
      by_cases present : line ≠ ""
      · refine ⟨pieces, ?_, ?_⟩
        · rw [if_neg (by simpa using present), List.modifyHead_cons, splitParagraphs_cons present]
        · rw [splitParagraphs_cons present, others]
      · obtain rfl := not_not.mp present
        refine ⟨(splitParagraphs lines).1 :: pieces, rfl, ?_⟩
        rw [← addParagraph_filter, ← others]
        rfl

/-- The paragraphs are what empty lines part. -/
theorem paragraphs_eq (lines : List String) :
    paragraphs lines = (lines.splitOn "").filter (!·.isEmpty) := by
  obtain ⟨pieces, pieced, others⟩ := splitOn_eq_splitParagraphs lines
  rw [pieced, ← addParagraph_filter, ← others]
  rfl

/-- Trimming the lines makes paragraphs of the runs. -/
theorem map_trimEnd_filledRuns (lines : List String) :
    (filledRuns lines).map (List.map trimEnd) = paragraphs (lines.map trimEnd) := by
  have pieces : (lines.map trimEnd).splitOn "" =
      (lines.splitOnP isAllBlank).map (List.map trimEnd) := by
    rw [List.splitOn]
    induction lines with
    | nil => rfl
    | cons line lines ih =>
        have sameCut : (trimEnd line == "") = isAllBlank line := by
          rw [Bool.eq_iff_iff, beq_iff_eq, trimEnd_eq_empty_iff]
        rw [List.map_cons, List.splitOnP_cons_eq_if_modifyHead, ih, sameCut,
          List.splitOnP_cons_eq_if_modifyHead]
        split
        · rfl
        · cases lines.splitOnP isAllBlank <;> rfl
  rw [filledRuns, paragraphs_eq, pieces, List.filter_map]
  simp [Function.comp_def]

/-- Trimmed lines are cut at the empty ones alone, so that their runs are paragraphs. -/
theorem filledRuns_eq_paragraphs {lines : List String} (trimmed : ∀ line ∈ lines, IsTrimmed line) :
    filledRuns lines = paragraphs lines := by
  have runs : (filledRuns lines).map (List.map trimEnd) = filledRuns lines := by
    refine (List.map_congr_left fun run isRun => ?_).trans (List.map_id' _)
    refine map_trimEnd_eq_self fun line inRun => trimmed line ?_
    have isFilled : line ∈ filledLines lines :=
      flatten_filledRuns lines ▸ List.mem_flatten_of_mem isRun inRun
    exact (List.mem_filter.mp isFilled).1
  rw [← runs, map_trimEnd_filledRuns, map_trimEnd_eq_self trimmed]

/-! ## Paragraphs as lines -/

/-- The lines of some paragraphs, with an empty one between two of them. -/
def spacedParagraphs (runs : List (List String)) : List String :=
  [""].intercalate runs

theorem isParagraph_of_mem {lines run : List String} (member : run ∈ paragraphs lines) :
    IsParagraph run := by
  obtain ⟨firstFull, others⟩ := splitParagraphs_spec lines
  change run ∈ addParagraph (splitParagraphs lines).1 (splitParagraphs lines).2 at member
  cases isFirst : (splitParagraphs lines).1 with
  | nil =>
      rw [isFirst] at member
      exact others run member
  | cons line rest =>
      rw [isFirst] at member firstFull
      rcases List.mem_cons.mp member with rfl | later
      · exact ⟨List.cons_ne_nil line rest, firstFull⟩
      · exact others run later

theorem mem_spacedParagraphs {line : String} {runs : List (List String)}
    (member : line ∈ spacedParagraphs runs) : line = "" ∨ line ∈ runs.flatten := by
  induction runs with
  | nil => exact (List.not_mem_nil member).elim
  | cons first others ih =>
      cases others with
      | nil =>
          rw [spacedParagraphs, List.intercalate_singleton] at member
          exact .inr (List.mem_flatten_of_mem List.mem_cons_self member)
      | cons next others =>
          rw [spacedParagraphs, List.intercalate_cons_cons, ← spacedParagraphs, List.mem_append,
            List.mem_append] at member
          rw [List.flatten_cons, List.mem_append]
          rcases member with (inFirst | isEmpty) | later
          · exact .inr (.inl inFirst)
          · exact .inl (List.mem_singleton.mp isEmpty)
          · exact (ih later).imp id .inr

section

variable {runs : List (List String)} (each : ∀ run ∈ runs, IsParagraph run)

include each

theorem ofParagraphs_eq : ofParagraphs runs = linesText (spacedParagraphs runs) := by
  cases runs with
  | nil => rfl
  | cons first others =>
      obtain ⟨isFirst, areOthers⟩ := List.forall_mem_cons.mp each
      have spaced : spacedParagraphs (first :: others) = first ++ others.flatMap ("" :: ·) := by
        clear each isFirst areOthers
        induction others generalizing first with
        | nil => simp [spacedParagraphs]
        | cons next others ih =>
            rw [spacedParagraphs, List.intercalate_cons_cons, ← spacedParagraphs, ih]
            simp
      rw [spaced, ofParagraphs_cons isFirst areOthers]

theorem paragraphs_spacedParagraphs :
    paragraphs (spacedParagraphs runs) = runs := by
  cases runs with
  | nil => rfl
  | cons first others =>
      rw [paragraphs_eq, spacedParagraphs, List.splitOn_intercalate "" (fun run isRun =>
        (each run isRun).2) (List.cons_ne_nil first others), List.filter_eq_self]
      intro run isRun
      simpa using (each run isRun).1

theorem spacedParagraphs_eq_nil_iff : spacedParagraphs runs = [] ↔ runs = [] := by
  refine ⟨fun nothing => ?_, fun nothing => nothing ▸ rfl⟩
  rw [← paragraphs_spacedParagraphs each, nothing]
  rfl

theorem empty_notMem_head?_spacedParagraphs : "" ∉ (spacedParagraphs runs).head? := by
  cases runs with
  | nil => exact Option.not_mem_none ""
  | cons first others =>
      obtain ⟨present, full⟩ := each first List.mem_cons_self
      have starts : (spacedParagraphs (first :: others)).head? = first.head? := by
        cases others with
        | nil => rw [spacedParagraphs, List.intercalate_singleton]
        | cons next others =>
            rw [spacedParagraphs, List.intercalate_cons_cons, List.append_assoc,
              List.head?_append_of_ne_nil _ present]
      rw [starts]
      exact fun isFirst => full (List.mem_of_mem_head? isFirst)

theorem empty_notMem_getLast?_spacedParagraphs :
    "" ∉ (spacedParagraphs runs).getLast? := by
  induction runs with
  | nil => exact Option.not_mem_none ""
  | cons first others ih =>
      obtain ⟨⟨present, full⟩, areOthers⟩ := List.forall_mem_cons.mp each
      cases others with
      | nil =>
          rw [spacedParagraphs, List.intercalate_singleton]
          exact fun isLast => full (List.mem_of_mem_getLast? isLast)
      | cons next others =>
          have more : spacedParagraphs (next :: others) ≠ [] :=
            mt (spacedParagraphs_eq_nil_iff areOthers).mp (List.cons_ne_nil next others)
          rw [spacedParagraphs, List.intercalate_cons_cons, ← spacedParagraphs,
            List.getLast?_append_of_ne_nil _ more]
          exact ih areOthers

theorem isChain_spacedParagraphs : (spacedParagraphs runs).IsChain NotBothEmpty := by
  have unbroken : ∀ run : List String, "" ∉ run → run.IsChain NotBothEmpty :=
    fun run full => (List.pairwise_of_forall_mem_list fun line isLine _ _ =>
      .inl (ne_of_mem_of_not_mem isLine full)).isChain
  induction runs with
  | nil => exact .nil
  | cons first others ih =>
      obtain ⟨isFirst, areOthers⟩ := List.forall_mem_cons.mp each
      cases others with
      | nil =>
          rw [spacedParagraphs, List.intercalate_singleton]
          exact unbroken first isFirst.2
      | cons next others =>
          have nextFilled := empty_notMem_head?_spacedParagraphs areOthers
          rw [spacedParagraphs, List.intercalate_cons_cons, ← spacedParagraphs, List.append_assoc,
            List.isChain_append, List.singleton_append, List.isChain_cons]
          refine ⟨unbroken first isFirst.2, ⟨fun line isNext => .inr ?_, ih areOthers⟩,
            fun line isLast _ _ => .inl ?_⟩
          · exact fun isEmpty => nextFilled (isEmpty ▸ isNext)
          · exact ne_of_mem_of_not_mem (List.mem_of_mem_getLast? isLast) isFirst.2

end

/-! ## Normal forms -/

/-- The text is a sequence of trimmed lines, each ended by a line feed. The first and the last of
them are not blank, nor are two neighbours ever both blank. -/
structure IsNormal (text : String) : Prop where
  feeds : linesText (lines text) = text
  ended : ∃ body, text = body ++ "\n" ∧ '\n' ∉ body.toList.getLast?
  started : ∃ first ∈ (lines text).head?, isAllBlank first = false
  trimmed : ∀ line ∈ lines text, IsTrimmed line
  spaced : (lines text).IsChain fun before line =>
    isAllBlank before = false ∨ isAllBlank line = false

/-- The lines of the normal form of a text. -/
def normalLines (text : String) : List String :=
  spacedParagraphs (paragraphs ((lines text).map trimEnd))

theorem normalizeBlankLines_eq_linesText (text : String) :
    normalizeBlankLines text = linesText (normalLines text) :=
  ofParagraphs_eq fun _ => isParagraph_of_mem

/-- A line of the normal form is empty or one of the lines of the text, trimmed. -/
theorem exists_line_of_mem_normalLines {text line : String} (member : line ∈ normalLines text) :
    line = "" ∨ ∃ source ∈ lines text, trimEnd source = line := by
  refine (mem_spacedParagraphs member).imp id fun inParagraphs => ?_
  rw [flatten_paragraphs] at inParagraphs
  exact List.mem_map.mp (List.mem_filter.mp inParagraphs).1

theorem isTrimmed_of_mem_normalLines {text line : String} (member : line ∈ normalLines text) :
    IsTrimmed line := by
  rcases exists_line_of_mem_normalLines member with rfl | ⟨source, -, rfl⟩
  · exact fun character isLast => nomatch isLast
  · exact isTrimmed_trimEnd source

theorem lineFeed_notMem_of_mem_normalLines {text line : String} (member : line ∈ normalLines text) :
    '\n' ∉ line.toList := by
  rcases exists_line_of_mem_normalLines member with rfl | ⟨source, isLine, rfl⟩
  · exact List.not_mem_nil
  · obtain ⟨characters, isCut, rfl⟩ := List.mem_map.mp isLine
    rw [trimEnd, String.toList_ofList, String.toList_ofList]
    exact fun inLine => lineFeed_notMem_of_mem_lineCharacters isCut
      ((List.rdropWhile_prefix isBlank characters).subset inLine)

theorem lines_normalizeBlankLines (text : String) :
    lines (normalizeBlankLines text) = normalLines text := by
  rw [normalizeBlankLines_eq_linesText]
  exact lines_linesText (fun line => lineFeed_notMem_of_mem_normalLines)
    fun line => isTrimmed_of_mem_normalLines

/-- Of the lines of the normal form only the empty ones are blank. -/
theorem isAllBlank_of_mem_normalLines {text line : String} (member : line ∈ normalLines text)
    (filled : line ≠ "") : isAllBlank line = false := by
  rw [(isTrimmed_of_mem_normalLines member).isAllBlank_eq, decide_eq_false filled]

/-- The normal form of a text with a line that is not blank is in normal form. -/
theorem isNormal_normalizeBlankLines {text : String} (present : normalLines text ≠ []) :
    IsNormal (normalizeBlankLines text) where
  feeds := by rw [lines_normalizeBlankLines, normalizeBlankLines_eq_linesText]
  ended := by
    obtain ⟨front, last, parted⟩ :=
      (List.eq_nil_or_concat' (normalLines text)).resolve_left present
    have isLast : last ∈ (normalLines text).getLast? := by
      rw [parted]
      exact List.getLast?_concat
    have member : last ∈ normalLines text := List.mem_of_mem_getLast? isLast
    have filled : last ≠ "" := by
      rintro rfl
      exact empty_notMem_getLast?_spacedParagraphs (fun _ => isParagraph_of_mem) isLast
    refine ⟨linesText front ++ last, ?_, ?_⟩
    · rw [normalizeBlankLines_eq_linesText, parted, linesText_append, String.append_assoc,
        linesText_cons]
      exact congrArg _ String.append_empty
    · rw [String.toList_append,
        List.getLast?_append_of_ne_nil _ (mt String.toList_eq_nil_iff.mp filled)]
      exact fun endsWithFeed =>
        absurd (isTrimmed_of_mem_normalLines member '\n' endsWithFeed) (by decide)
  started := by
    rw [lines_normalizeBlankLines]
    obtain ⟨first, rest, parted⟩ := List.exists_cons_of_ne_nil present
    have isFirst : first ∈ (normalLines text).head? := by
      rw [parted]
      exact rfl
    refine ⟨first, isFirst, isAllBlank_of_mem_normalLines (List.mem_of_mem_head? isFirst) ?_⟩
    rintro rfl
    exact empty_notMem_head?_spacedParagraphs (fun _ => isParagraph_of_mem) isFirst
  trimmed := by
    rw [lines_normalizeBlankLines]
    exact fun line => isTrimmed_of_mem_normalLines
  spaced := by
    have chain : (normalLines text).IsChain NotBothEmpty :=
      isChain_spacedParagraphs fun _ => isParagraph_of_mem
    rw [lines_normalizeBlankLines]
    refine chain.imp_of_mem_imp fun before line isBefore isLine => ?_
    exact Or.imp (isAllBlank_of_mem_normalLines isBefore) (isAllBlank_of_mem_normalLines isLine)

/-- The lines of the normal form have the paragraphs of the text. -/
theorem paragraphs_normalLines (text : String) :
    paragraphs (normalLines text) = paragraphs ((lines text).map trimEnd) :=
  paragraphs_spacedParagraphs fun _ => isParagraph_of_mem

/-- The runs of the normal form are those of the text, trimmed. -/
theorem filledRuns_normalizeBlankLines (text : String) :
    filledRuns (lines (normalizeBlankLines text)) =
      (filledRuns (lines text)).map (List.map trimEnd) := by
  rw [lines_normalizeBlankLines,
    filledRuns_eq_paragraphs fun line => isTrimmed_of_mem_normalLines, paragraphs_normalLines,
    map_trimEnd_filledRuns]

/-- Bringing a text in normal form leaves nothing of a text of blank lines, and of any other one its
runs of lines that are not blank, trimmed and with one empty line between two of them. A second time
changes nothing. -/
theorem keepsRuns_normalizeBlankLines (text : String) :
    (normalizeBlankLines text = "" ∨ IsNormal (normalizeBlankLines text)) ∧
      filledLines (lines (normalizeBlankLines text)) = (filledLines (lines text)).map trimEnd ∧
      filledRuns (lines (normalizeBlankLines text)) =
        (filledRuns (lines text)).map (List.map trimEnd) ∧
      normalizeBlankLines (normalizeBlankLines text) = normalizeBlankLines text := by
  refine ⟨?_, ?_, filledRuns_normalizeBlankLines text, ?_⟩
  · by_cases present : normalLines text ≠ []
    · exact .inr (isNormal_normalizeBlankLines present)
    · rw [normalizeBlankLines_eq_linesText, not_not.mp present]
      exact .inl rfl
  · rw [← flatten_filledRuns, filledRuns_normalizeBlankLines, ← List.map_flatten,
      flatten_filledRuns]
  · calc normalizeBlankLines (normalizeBlankLines text)
        = ofParagraphs (paragraphs ((normalLines text).map trimEnd)) := by
          rw [← lines_normalizeBlankLines]
          rfl
      _ = ofParagraphs (paragraphs (normalLines text)) := by
          rw [map_trimEnd_eq_self fun line => isTrimmed_of_mem_normalLines]
      _ = ofParagraphs (paragraphs ((lines text).map trimEnd)) := by
          rw [paragraphs_normalLines]
      _ = normalizeBlankLines text := rfl

end Text

end DocPages
