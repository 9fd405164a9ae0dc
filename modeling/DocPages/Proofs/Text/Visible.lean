import DocPages.Proofs.Text.Paragraphs

/-!
# Visible characters

The characters of a text that are not blank. Cutting a text into lines, trimming these and joining
those that are left drops blanks alone. So what a text shows it still shows afterwards: every
visible character is there, in its order.
-/

namespace DocPages

namespace Text

/-- The characters that are not blank. -/
def visible (characters : List Char) : List Char := characters.filter (!isBlank ·)

theorem visible_append (left right : List Char) :
    visible (left ++ right) = visible left ++ visible right := List.filter_append left right

theorem visible_cons (character : Char) (rest : List Char) :
    visible (character :: rest) = visible [character] ++ visible rest :=
  visible_append [character] rest

theorem visible_sublist (characters : List Char) : (visible characters).Sublist characters :=
  List.filter_sublist

theorem visible_visible (characters : List Char) :
    visible (visible characters) = visible characters := by
  simp [visible]

/-! ## Trimmed lines -/

theorem visible_dropLeadingBlanks (characters : List Char) :
    visible (dropLeadingBlanks characters) = visible characters := by
  induction characters with
  | nil => rfl
  | cons character rest ih =>
      cases blank : isBlank character with
      | true =>
          have invisible : visible [character] = [] := by simp [visible, blank]
          rw [dropLeadingBlanks, List.dropWhile_cons_of_pos blank, visible_cons, invisible]
          exact ih
      | false => rw [dropLeadingBlanks, List.dropWhile_cons_of_neg (by simp [blank])]

theorem visible_dropTrailingBlanks (characters : List Char) :
    visible (dropTrailingBlanks characters) = visible characters := by
  have visible_reverse : ∀ characters, visible characters.reverse = (visible characters).reverse :=
    fun _ => List.filter_reverse
  rw [dropTrailingBlanks, ← dropLeadingBlanks, visible_reverse, visible_dropLeadingBlanks,
    visible_reverse, List.reverse_reverse]

theorem visible_trimEnd (text : String) : visible (trimEnd text).toList = visible text.toList := by
  rw [trimEnd, String.toList_ofList, visible_dropTrailingBlanks]

theorem visible_trim (text : String) : visible (trim text).toList = visible text.toList := by
  rw [trim, String.toList_ofList, visible_dropTrailingBlanks, visible_dropLeadingBlanks]

/-! ## Lines -/

/-- Between the lines of a text there is nothing but blanks. -/
theorem flatMap_visible_lineCharacters (text : List Char) :
    (lineCharacters text).flatMap visible = visible text := by
  fun_induction lineCharacters text with
  | case1 => rfl
  | case2 rest ih => exact ih
  | case3 rest ih => exact ih
  | case4 character rest _ _ nothing ih =>
      rw [nothing, List.flatMap_nil] at ih
      rw [visible_cons, ← ih, List.flatMap_singleton, List.append_nil]
  | case5 character rest _ _ line lines lined ih =>
      rw [lined, List.flatMap_cons] at ih
      rw [visible_cons, ← ih, List.flatMap_cons, visible_cons, List.append_assoc]

theorem lineFeed_notMem_of_mem_lineCharacters {text line : List Char}
    (isLine : line ∈ lineCharacters text) : '\n' ∉ line := by
  fun_induction lineCharacters text generalizing line with
  | case1 => exact (List.not_mem_nil isLine).elim
  | case2 rest ih | case3 rest ih =>
      rcases List.mem_cons.mp isLine with rfl | later
      · exact List.not_mem_nil
      · exact ih later
  | case4 character rest noFeed _ nothing ih =>
      obtain rfl := List.mem_singleton.mp isLine
      exact mt List.mem_singleton.mp (Ne.symm noFeed)
  | case5 character rest noFeed _ first lines lined ih =>
      rw [lined] at ih
      rcases List.mem_cons.mp isLine with rfl | later
      · exact List.not_mem_cons_of_ne_of_not_mem (Ne.symm noFeed) (ih List.mem_cons_self)
      · exact ih (List.mem_cons_of_mem first later)

/-! ## Shown texts -/

/-- The text shows a body: all visible characters of the body are in it, in their order. -/
def Shows (text body : String) : Prop := (visible body.toList).Sublist text.toList

theorem shows_self (text : String) : Shows text text := visible_sublist text.toList

theorem shows_empty (text : String) : Shows text "" := List.nil_sublist text.toList

namespace Shows

variable {text body : String} (shows : Shows text body)

include shows

theorem of_sublist {longer : String} (sublist : text.toList.Sublist longer.toList) :
    Shows longer body :=
  List.Sublist.trans shows sublist

theorem preceded (before : String) : Shows (before ++ text) body := by
  refine shows.of_sublist ?_
  rw [String.toList_append]
  exact List.sublist_append_right _ _

theorem followed (behind : String) : Shows (text ++ behind) body := by
  refine shows.of_sublist ?_
  rw [String.toList_append]
  exact List.sublist_append_left _ _

/-- What a text shows of another one, it shows of what that one shows. -/
theorem trans {whole : String} (outer : Shows whole text) : Shows whole body := by
  have visibleShows := List.Sublist.filter (!isBlank ·) shows
  rw [← visible, visible_visible] at visibleShows
  exact List.Sublist.trans visibleShows outer

theorem append {more moreBody : String} (moreShows : Shows more moreBody) :
    Shows (text ++ more) (body ++ moreBody) := by
  rw [Shows, String.toList_append, String.toList_append, visible_append]
  exact List.Sublist.append shows moreShows

end Shows

/-- Texts put together show what each of them shows. -/
theorem shows_join {α : Type} {elements : List α} {text body : α → String}
    (each : ∀ element ∈ elements, Shows (text element) (body element)) :
    Shows (String.join (elements.map text)) (String.join (elements.map body)) := by
  induction elements with
  | nil => exact shows_empty _
  | cons head tail ih =>
      obtain ⟨headShows, tailShow⟩ := List.forall_mem_cons.mp each
      rw [List.map_cons, List.map_cons, String.join_cons, String.join_cons]
      exact headShows.append (ih tailShow)

/-- What joins parts adds to them. -/
theorem join_sublist_intercalate (joint : String) (parts : List String) :
    (String.join parts).toList.Sublist (joint.intercalate parts).toList := by
  induction parts with
  | nil => exact List.nil_sublist _
  | cons part parts ih =>
      cases parts with
      | nil => simp
      | cons next parts =>
          rw [String.join_cons, String.intercalate_cons_of_ne_nil (List.cons_ne_nil next parts),
            String.toList_append, String.toList_append, String.toList_append, List.append_assoc]
          exact (List.Sublist.refl _).append (ih.trans (List.sublist_append_right _ _))

/-! ## Texts of lines -/

/-- The lines of a text that are left when they are trimmed show what the text shows. -/
private theorem visible_join_lines (text : String) {trimmed : String → String}
    (trims : ∀ line, visible (trimmed line).toList = visible line.toList) :
    visible (String.join (((lines text).map trimmed).filter (!·.isEmpty))).toList =
      visible text.toList := by
  have ofLines : ∀ lines : List String,
      visible (String.join ((lines.map trimmed).filter (!·.isEmpty))).toList =
        lines.flatMap (visible ·.toList) := by
    intro lines
    induction lines with
    | nil => rfl
    | cons line lines ih =>
        rw [List.map_cons, List.flatMap_cons, ← trims line]
        by_cases nothing : trimmed line = ""
        · rw [nothing, List.filter_cons_of_neg (by simp), ih]
          rfl
        · rw [List.filter_cons_of_pos (by simpa using nothing), String.join_cons,
            String.toList_append, visible_append, ih]
  rw [ofLines, lines, List.flatMap_map]
  simp only [String.toList_ofList, flatMap_visible_lineCharacters]

/-- A text on one line shows what it showed before. -/
theorem shows_joinLines (separator text : String) : Shows (joinLines separator text) text := by
  rw [Shows, ← visible_join_lines text visible_trim]
  exact (visible_sublist _).trans (join_sublist_intercalate separator _)

theorem flatten_addParagraph (lines : List String) (paragraphs : List (List String)) :
    (addParagraph lines paragraphs).flatten = lines ++ paragraphs.flatten := by
  cases lines <;> rfl

/-- Paragraphs are the lines that are not empty. -/
theorem flatten_paragraphs (lines : List String) :
    (paragraphs lines).flatten = lines.filter (!·.isEmpty) := by
  have split : (splitParagraphs lines).1 ++ (splitParagraphs lines).2.flatten =
      lines.filter (!·.isEmpty) := by
    induction lines with
    | nil => rfl
    | cons line lines ih =>
        by_cases present : line ≠ ""
        · rw [splitParagraphs_cons present, List.filter_cons_of_pos (by simpa using present), ← ih]
          rfl
        · obtain rfl := not_not.mp present
          have ended : splitParagraphs ("" :: lines) =
              ([], addParagraph (splitParagraphs lines).1 (splitParagraphs lines).2) := rfl
          rw [ended, List.filter_cons_of_neg (by simp), ← ih, List.nil_append,
            flatten_addParagraph]
  rw [← split, ← flatten_addParagraph]
  rfl

theorem join_flatten (parts : List (List String)) :
    String.join parts.flatten = String.join (parts.map String.join) := by
  induction parts with
  | nil => rfl
  | cons part parts ih =>
      rw [List.flatten_cons, String.join_append, List.map_cons, String.join_cons, ih]

theorem join_flatMap {α : Type} (elements : List α) (texts : α → List String) :
    String.join (elements.flatMap texts) =
      String.join (elements.map fun element => String.join (texts element)) := by
  rw [List.flatMap_def, join_flatten, List.map_map]
  rfl

/-- The text of some paragraphs shows their lines. -/
theorem shows_ofParagraphs (paragraphs : List (List String)) :
    Shows (ofParagraphs paragraphs) (String.join paragraphs.flatten) := by
  cases paragraphs with
  | nil => exact shows_empty _
  | cons first others =>
      have each : ∀ paragraph ∈ first :: others,
          Shows (String.intercalate "\n" paragraph) (String.join paragraph) := fun paragraph _ =>
        (shows_self _).of_sublist (join_sublist_intercalate "\n" paragraph)
      rw [join_flatten, ofParagraphs]
      · exact ((shows_join each).of_sublist (join_sublist_intercalate "\n\n" _)).followed "\n"
      · exact List.cons_ne_nil first others

/-- A text in normal form shows what it showed before. -/
theorem shows_normalizeBlankLines (text : String) : Shows (normalizeBlankLines text) text := by
  have shows := shows_ofParagraphs (paragraphs ((lines text).map trimEnd))
  rwa [flatten_paragraphs, Shows, visible_join_lines text visible_trimEnd] at shows

end Text

end DocPages
