import DocPages.Comment.Markup
import DocPages.Proofs.Text.Bytes
import DocPages.Proofs.Text.NormalForm

/-!
# The first sentence of a comment

A sentence ends with a full stop that a space follows. The first sentence of a comment is what its
first block has before and with the first such full stop, or all of the block if there is none, but
for the blanks around it. The full stop is searched among the bytes of the text, and a cut there is
one between two characters. A sentence has no such full stop in it, so it is its own first sentence.
-/

namespace DocPages

namespace Text

/-! ## Trimmed texts -/

/-- The text neither starts nor ends with a blank. -/
structure IsStripped (text : String) : Prop where
  starts : ∀ character ∈ text.toList.head?, isBlank character = false
  ends : IsTrimmed text

theorem trim_eq_trimEnd (text : String) :
    trim text = trimEnd (String.ofList (dropLeadingBlanks text.toList)) := by
  rw [trim, trimEnd, String.toList_ofList]

theorem exists_trimEnd_append (text : String) :
    ∃ blanks, text = trimEnd text ++ blanks ∧ isAllBlank blanks := by
  refine ⟨String.ofList (text.toList.rtakeWhile isBlank), ?_, ?_⟩
  · rw [← String.toList_inj, String.toList_append, trimEnd, String.toList_ofList,
      String.toList_ofList]
    exact List.rdropWhile_append_rtakeWhile.symm
  · rw [isAllBlank, String.toList_ofList, List.all_eq_true]
    exact fun _ => List.mem_rtakeWhile_imp

/-- A text is its trimmed text with blanks around it. -/
theorem exists_append_trim_append (text : String) :
    ∃ before behind, text = before ++ trim text ++ behind ∧ isAllBlank before ∧
      isAllBlank behind := by
  obtain ⟨behind, parts, blank⟩ :=
    exists_trimEnd_append (String.ofList (dropLeadingBlanks text.toList))
  refine ⟨String.ofList (text.toList.takeWhile isBlank), behind, ?_, ?_, blank⟩
  · rw [String.append_assoc, trim_eq_trimEnd, ← parts, ← String.ofList_append, dropLeadingBlanks,
      List.takeWhile_append_dropWhile, String.ofList_toList]
  · rw [isAllBlank, String.toList_ofList]
    exact List.all_takeWhile

theorem isStripped_trim (text : String) : IsStripped (trim text) where
  starts := by
    intro character isFirst
    obtain ⟨blanks, parts, -⟩ :=
      exists_trimEnd_append (String.ofList (dropLeadingBlanks text.toList))
    have isFirst' : character ∈ (dropLeadingBlanks text.toList).head? := by
      rw [← String.toList_ofList (l := dropLeadingBlanks _), parts, ← trim_eq_trimEnd,
        String.toList_append]
      exact List.mem_head?_append_of_mem_head? isFirst
    have visible := List.head?_dropWhile_not isBlank text.toList
    rwa [← dropLeadingBlanks, isFirst'] at visible
  ends := by
    rw [trim_eq_trimEnd]
    exact isTrimmed_trimEnd _

theorem IsStripped.trim_eq {text : String} (stripped : IsStripped text) : trim text = text := by
  have kept : dropLeadingBlanks text.toList = text.toList := by
    obtain ⟨starts, -⟩ := stripped
    cases characters : text.toList with
    | nil => rfl
    | cons character rest =>
        rw [characters] at starts
        exact List.dropWhile_cons_of_neg (by simp [starts character rfl])
  rw [trim_eq_trimEnd, kept, String.ofList_toList, stripped.ends.trimEnd_eq]

/-- A text that is cut behind a visible character is trimmed at its start alone. -/
theorem exists_append_trim {text : String} {last : Char} (isLast : last ∈ text.toList.getLast?)
    (visible : isBlank last = false) :
    ∃ blanks, text = blanks ++ trim text ∧ isAllBlank blanks ∧
      last ∈ (trim text).toList.getLast? := by
  have notInBlanks : ∀ {blanks : String}, isAllBlank blanks → last ∉ blanks.toList.getLast? := by
    intro blanks blank isLast
    have blankLast := List.all_eq_true.mp blank last (List.mem_of_mem_getLast? isLast)
    exact absurd blankLast (by simp [visible])
  obtain ⟨before, behind, parts, blankBefore, blankBehind⟩ := exists_append_trim_append text
  have behindEmpty : behind = "" := by
    by_contra present
    rw [parts, String.toList_append, List.getLast?_append_of_ne_nil _ (by simpa using present)]
      at isLast
    exact notInBlanks blankBehind isLast
  subst behindEmpty
  rw [String.append_empty] at parts
  refine ⟨before, parts, blankBefore, ?_⟩
  by_cases nothing : (trim text).toList = []
  · rw [parts, String.toList_append, nothing, List.append_nil] at isLast
    exact (notInBlanks blankBefore isLast).elim
  · rw [parts, String.toList_append, List.getLast?_append_of_ne_nil _ nothing] at isLast
    exact isLast

/-! ## The end of the first sentence -/

/-- A full stop that a space follows. -/
def sentenceEnd : List Char := ['.', ' ']

/-- Either the characters are cut behind the first full stop that a space follows, or there is none
and all of them are kept. -/
theorem firstSentenceCharacters_cases (text : List Char) :
    (∃ before rest, text = before ++ sentenceEnd ++ rest ∧
      ¬ sentenceEnd <:+: before ++ ['.'] ∧ firstSentenceCharacters text = before ++ ['.']) ∨
    (¬ sentenceEnd <:+: text ∧ firstSentenceCharacters text = text) := by
  fun_induction firstSentenceCharacters text with
  | case1 rest => exact .inl ⟨[], rest, rfl, by decide, rfl⟩
  | case2 character rest goesOn ih =>
      have notHere : ¬ sentenceEnd <+: character :: rest := by
        rintro ⟨more, same⟩
        obtain ⟨rfl, rfl⟩ := List.cons.inj same
        exact goesOn more rfl rfl
      rcases ih with ⟨before, more, rfl, free, found⟩ | ⟨free, all⟩
      · refine .inl ⟨character :: before, more, rfl, ?_, congrArg (character :: ·) found⟩
        have isPrefix : character :: (before ++ ['.']) <+:
            character :: (before ++ sentenceEnd ++ more) :=
          ⟨' ' :: more, by simp [sentenceEnd]⟩
        exact mt List.infix_cons_iff.mp
          (not_or.mpr ⟨fun here => notHere (here.trans isPrefix), free⟩)
      · exact .inr ⟨mt List.infix_cons_iff.mp (not_or.mpr ⟨notHere, free⟩),
          congrArg (character :: ·) all⟩
  | case3 => exact .inr ⟨by decide, rfl⟩

theorem firstSentenceCharacters_of_not_infix {text : List Char}
    (free : ¬ sentenceEnd <:+: text) : firstSentenceCharacters text = text := by
  rcases firstSentenceCharacters_cases text with ⟨before, rest, rfl, -, -⟩ | ⟨-, all⟩
  · exact (free (List.infix_append before sentenceEnd rest)).elim
  · exact all

/-- Before any full stop that a space follows stands what is before the first one. -/
theorem prefix_of_sentenceEnd_first {before rest left right : List Char}
    (free : ¬ sentenceEnd <:+: before ++ ['.'])
    (same : left ++ sentenceEnd ++ right = before ++ sentenceEnd ++ rest) : before <+: left := by
  have leftPrefix : left ++ sentenceEnd <+: before ++ sentenceEnd ++ rest :=
    same ▸ List.prefix_append _ right
  by_contra notBefore
  have shorter : left.length < before.length := by
    by_contra longer
    exact notBefore (List.prefix_of_prefix_length_le ((List.prefix_append before _).trans
      (List.prefix_append _ rest)) ((List.prefix_append left _).trans leftPrefix) (by omega))
  have earlier : left ++ sentenceEnd <+: before ++ ['.'] :=
    List.prefix_of_prefix_length_le leftPrefix ⟨' ' :: rest, by simp [sentenceEnd]⟩
      (by simp [sentenceEnd]; omega)
  exact free ((List.suffix_append left sentenceEnd).isInfix.trans earlier.isInfix)

/-! ## The cut among the bytes -/

/-- The pattern stands at the place of the text, and at no place before it. -/
structure OccursFirstAt {α : Type} (pattern text : List α) (place : Nat) : Prop where
  here : pattern <+: text.drop place
  notEarlier : ∀ earlier < place, ¬ pattern <+: text.drop earlier

/-- A search among the bytes finds the full stops that a space follows. -/
theorem exists_sentenceEnd_of_bytes {text : List Char} {offset : Nat}
    (found : bytes sentenceEnd <+: (bytes text).drop offset) :
    ∃ left right, text = left ++ sentenceEnd ++ right ∧ (bytes left).length = offset := by
  obtain ⟨more, isRest⟩ := found
  have inside : offset ≤ (bytes text).length := by
    by_contra outside
    rw [List.drop_of_length_le (by omega)] at isRest
    simp [sentenceEnd, bytes] at isRest
  have parts : bytes text = (bytes text).take offset ++
      UInt8.ofNat '.'.toNat :: (UInt8.ofNat ' '.toNat :: more) := by
    conv_lhs => rw [← List.take_append_drop offset (bytes text), ← isRest]
    rfl
  obtain ⟨left, right, rfl, isLeft, isRight⟩ := exists_cut_of_bytes_eq (by decide) parts
  have spaceFirst : bytes right = [] ++ UInt8.ofNat ' '.toNat :: more := isRight
  obtain ⟨space, right, rfl, nothing, -⟩ := exists_cut_of_bytes_eq (by decide) spaceFirst
  obtain rfl := bytes_eq_nil_iff.mp nothing
  refine ⟨left, right, by simp [sentenceEnd], ?_⟩
  rw [isLeft, List.length_take, Nat.min_eq_left inside]

/-- What is cut from a text that is searched by its bytes: up to and with the first full stop that a
space follows, where one character ends and the next one starts, or all of the text. -/
inductive CutAmongBytes (text : String) : String → Prop where
  | behindStop {offset : Nat} {cut : String}
      (first : OccursFirstAt (bytes sentenceEnd) (bytes text.toList) offset)
      (between : (String.Pos.Raw.mk (offset + 1)).IsValid text)
      (cuts : bytes cut.toList = (bytes text.toList).take (offset + 1)) : CutAmongBytes text cut
  | whole (absent : ¬ bytes sentenceEnd <:+: bytes text.toList) : CutAmongBytes text text

theorem cutAmongBytes_firstSentence (text : String) :
    CutAmongBytes text (String.ofList (firstSentenceCharacters text.toList)) := by
  rcases firstSentenceCharacters_cases text.toList with
    ⟨before, rest, parts, free, found⟩ | ⟨free, all⟩
  · have stopByte : bytes ['.'] = [UInt8.ofNat '.'.toNat] := rfl
    have cutBytes : (bytes (before ++ ['.'])).length = (bytes before).length + 1 := by
      simp [bytes_append, stopByte]
    have textParts : text.toList = before ++ ['.'] ++ ' ' :: rest := by
      simp [parts, sentenceEnd]
    have first : OccursFirstAt (bytes sentenceEnd) (bytes text.toList) (bytes before).length := by
      refine ⟨?_, fun earlier isEarlier stands => ?_⟩
      · rw [parts, bytes_append, bytes_append, List.append_assoc, List.drop_left]
        exact List.prefix_append _ _
      · obtain ⟨left, right, same, rfl⟩ := exists_sentenceEnd_of_bytes stands
        obtain ⟨more, rfl⟩ := prefix_of_sentenceEnd_first free (same.symm.trans parts)
        rw [bytes_append, List.length_append] at isEarlier
        omega
    have between : (String.Pos.Raw.mk ((bytes before).length + 1)).IsValid text := by
      refine String.Pos.Raw.isValid_iff_exists_append.mpr
        ⟨String.ofList (before ++ ['.']), String.ofList (' ' :: rest), ?_, ?_⟩
      · rw [← String.ofList_append, ← textParts, String.ofList_toList]
      · rw [String.rawEndPos, ← length_bytes_toList, String.toList_ofList, cutBytes]
    refine .behindStop first between ?_
    rw [found, String.toList_ofList, textParts, bytes_append _ (' ' :: rest), ← cutBytes,
      List.take_left]
  · rw [all, String.ofList_toList]
    refine .whole fun ⟨before, behind, parts⟩ => ?_
    have stands : bytes sentenceEnd <+: (bytes text.toList).drop before.length := by
      rw [← parts, List.append_assoc, List.drop_left]
      exact List.prefix_append _ _
    obtain ⟨left, right, same, -⟩ := exists_sentenceEnd_of_bytes stands
    exact free (same ▸ List.infix_append left sentenceEnd right)

/-! ## First sentences -/

/-- The first sentence of a text, without the blanks around it. -/
inductive IsFirstSentence (text sentence : String) : Prop where
  /-- It ends with the first full stop that a space follows. -/
  | stopped {blanks rest : String} (parts : text = blanks ++ sentence ++ " " ++ rest)
      (blank : isAllBlank blanks) (stripped : IsStripped sentence)
      (stop : sentence.toList.getLast? = some '.')
      (first : ¬ sentenceEnd <:+: (blanks ++ sentence).toList)
  /-- It is all of a text without such a full stop. -/
  | whole {before behind : String} (parts : text = before ++ sentence ++ behind)
      (blankBefore : isAllBlank before) (blankBehind : isAllBlank behind)
      (stripped : IsStripped sentence) (absent : ¬ sentenceEnd <:+: text.toList)

theorem IsFirstSentence.isStripped {text sentence : String}
    (first : IsFirstSentence text sentence) : IsStripped sentence := by
  cases first with
  | stopped _ _ stripped => exact stripped
  | whole _ _ _ stripped => exact stripped

theorem IsFirstSentence.not_infix {text sentence : String}
    (first : IsFirstSentence text sentence) : ¬ sentenceEnd <:+: sentence.toList := by
  cases first with
  | stopped _ _ _ _ free =>
      rw [String.toList_append] at free
      exact fun within => free (within.trans (List.suffix_append _ _).isInfix)
  | whole parts _ _ _ absent =>
      rw [parts, String.toList_append, String.toList_append] at absent
      exact fun within => absent (within.trans (List.infix_append _ _ _))

theorem isFirstSentence_trim (text : String) :
    IsFirstSentence text (trim (String.ofList (firstSentenceCharacters text.toList))) := by
  rcases firstSentenceCharacters_cases text.toList with
    ⟨before, rest, parts, free, found⟩ | ⟨free, all⟩
  · rw [found]
    have isLast : '.' ∈ (String.ofList (before ++ ['.'])).toList.getLast? := by simp
    obtain ⟨blanks, cutParts, blank, stop⟩ := exists_append_trim isLast (by decide)
    have textParts : text = blanks ++ trim (String.ofList (before ++ ['.'])) ++ " " ++
        String.ofList rest := by
      rw [← cutParts, ← String.toList_inj]
      simp [parts, sentenceEnd]
    refine .stopped textParts blank (isStripped_trim _) stop ?_
    rwa [← cutParts, String.toList_ofList]
  · rw [all, String.ofList_toList]
    obtain ⟨before, behind, parts, blankBefore, blankBehind⟩ := exists_append_trim_append text
    exact .whole parts blankBefore blankBehind (isStripped_trim text) free

end Text

namespace Markup

open Text

/-- A sentence is its own first sentence. -/
theorem firstSentence_eq_self {sentence : String} (stripped : IsStripped sentence)
    (free : ¬ sentenceEnd <:+: sentence.toList) :
    (paragraph [text sentence]).firstSentence = paragraph [text sentence] := by
  have isText : (paragraph [text sentence]).firstParagraph.plainText = sentence := by
    simp [firstParagraph, plainText, plainTextList]
  rw [firstSentence, isText, firstSentenceCharacters_of_not_infix free, String.ofList_toList,
    stripped.trim_eq]

/-- The first sentence of a comment is the first one of the text of its first block, cut between two
characters and trimmed, with no other sentence in it. -/
theorem exists_firstSentence (markup : Markup) :
    ∃ cut sentence, CutAmongBytes markup.firstParagraph.plainText cut ∧ sentence = trim cut ∧
      markup.firstSentence = paragraph [text sentence] ∧
      IsFirstSentence markup.firstParagraph.plainText sentence ∧
      ¬ sentenceEnd <:+: sentence.toList ∧
      markup.firstSentence.firstSentence = markup.firstSentence := by
  have first := isFirstSentence_trim markup.firstParagraph.plainText
  exact ⟨_, _, cutAmongBytes_firstSentence _, rfl, rfl, first, first.not_infix,
    firstSentence_eq_self first.isStripped first.not_infix⟩

-- Blank text before the first block is passed over, and so are the blanks that the block starts
-- with.
example :
    (root [text "\n", paragraph [text " ", bold [text "É"], text "té. Hiver. "]]).firstSentence =
      paragraph [text "Été."] := by
  decide +kernel

end Markup

end DocPages
