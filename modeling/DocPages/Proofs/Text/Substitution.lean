import DocPages.Text.Substitution

/-!
# Laws of substitution

Replacing a pattern goes through its occurrences from the left, each looked for behind the one
before. The pattern is gone afterwards, if the replacement is not empty and shares no character with
it: what is left of the text is broken up by the replacements, so no new occurrence comes together.
Replacing it again therefore changes nothing.
-/

namespace DocPages

namespace Text

variable {pattern replacement : List Char}

/-- A text without the pattern stays as it is. -/
theorem replaceCharacters_eq_self {text : List Char} (absent : ¬pattern <:+: text) :
    replaceCharacters pattern replacement 0 text = text := by
  induction text with
  | nil => rfl
  | cons character rest ih =>
      obtain ⟨notHere, notLater⟩ := not_or.mp (mt List.infix_cons_iff.mpr absent)
      rw [replaceCharacters, if_neg (mt List.isPrefixOf_iff_prefix.mp notHere), ih notLater]

/-- What a text starts with after a replacement it started with before, if none of it comes from a
replacement. -/
private theorem prefix_of_prefix_replaceCharacters (visible : replacement ≠ [])
    {start text : List Char} (foreign : ∀ character ∈ start, character ∉ replacement)
    (starts : start <+: replaceCharacters pattern replacement 0 text) : start <+: text := by
  induction start generalizing text with
  | nil => exact List.nil_prefix
  | cons first start ih =>
      obtain ⟨firstForeign, foreign⟩ := List.forall_mem_cons.mp foreign
      cases text with
      | nil => simp [replaceCharacters] at starts
      | cons character rest =>
          rw [replaceCharacters] at starts
          split at starts
          · obtain ⟨head, tail, rfl⟩ := List.exists_cons_of_ne_nil visible
            rw [List.cons_append, List.cons_prefix_cons] at starts
            exact absurd (starts.1 ▸ List.mem_cons_self) firstForeign
          · rw [List.cons_prefix_cons] at starts ⊢
            exact ⟨starts.1, ih foreign starts.2⟩

/-- An occurrence of a word after foreign characters does not begin among them. -/
private theorem infix_of_infix_append {word front text : List Char} (nonempty : word ≠ [])
    (foreign : ∀ character ∈ word, character ∉ front) (occurs : word <:+: front ++ text) :
    word <:+: text := by
  induction front with
  | nil => exact occurs
  | cons head front ih =>
      have tailForeign : ∀ character ∈ word, character ∉ front := fun character member inFront =>
        foreign character member (List.mem_cons_of_mem head inFront)
      rcases List.infix_cons_iff.mp occurs with starts | later
      · obtain ⟨first, rest, rfl⟩ := List.exists_cons_of_ne_nil nonempty
        have same : first = head := (List.cons_prefix_cons.mp starts).1
        exact absurd (same ▸ List.mem_cons_self) (foreign first List.mem_cons_self)
      · exact ih tailForeign later

/-- The pattern does not occur after it was replaced. -/
theorem not_infix_replaceCharacters (nonempty : pattern ≠ []) (visible : replacement ≠ [])
    (foreign : ∀ character ∈ pattern, character ∉ replacement) (dropped : Nat) (text : List Char) :
    ¬pattern <:+: replaceCharacters pattern replacement dropped text := by
  induction text generalizing dropped with
  | nil => simpa [replaceCharacters] using nonempty
  | cons character rest ih =>
      cases dropped with
      | succ dropped => exact ih dropped
      | zero =>
          intro occurs
          by_cases here : pattern <+: character :: rest
          · rw [replaceCharacters, if_pos (List.isPrefixOf_iff_prefix.mpr here)] at occurs
            exact ih _ (infix_of_infix_append nonempty foreign occurs)
          · have kept : replaceCharacters pattern replacement 0 (character :: rest) =
                character :: replaceCharacters pattern replacement 0 rest := by
              rw [replaceCharacters, if_neg (mt List.isPrefixOf_iff_prefix.mp here)]
            rw [kept] at occurs
            rcases List.infix_cons_iff.mp occurs with starts | later
            · rw [← kept] at starts
              exact here (prefix_of_prefix_replaceCharacters visible foreign starts)
            · exact ih 0 later

/-- Where the pattern occurs, the replacement comes in. -/
private theorem mem_replaceCharacters {text : List Char} (occurs : pattern <:+: text)
    (nonempty : pattern ≠ []) {character : Char} (member : character ∈ replacement) :
    character ∈ replaceCharacters pattern replacement 0 text := by
  induction text with
  | nil => exact absurd (List.eq_nil_of_infix_nil occurs) nonempty
  | cons first rest ih =>
      rw [replaceCharacters]
      split
      · exact List.mem_append_left _ member
      · rename_i notHere
        rcases List.infix_cons_iff.mp occurs with here | later
        · exact absurd (List.isPrefixOf_iff_prefix.mpr here) notHere
        · exact List.mem_cons_of_mem first (ih later)

/-- A single character is replaced wherever it stands. -/
theorem toList_replace_singleton (character : Char) (replacement text : String) :
    (replace (String.singleton character) replacement text).toList =
      text.toList.flatMap fun other =>
        if other = character then replacement.toList else [other] := by
  have present : ¬(String.singleton character).isEmpty := by simp
  rw [replace, if_neg present, String.toList_ofList, String.toList_singleton]
  induction text.toList with
  | nil => rfl
  | cons other rest ih =>
      by_cases here : other = character
      · simp [replaceCharacters, here, ih]
      · simp [replaceCharacters, here, Ne.symm here, ih]

/-! ## Occurrences from the left -/

/-- The result has the replacement in place of the first occurrence of the pattern and, in turn, of
those behind it. -/
inductive Replaced (pattern replacement : List Char) : List Char → List Char → Prop
  | absent {text : List Char} (absent : ¬pattern <:+: text) :
      Replaced pattern replacement text text
  /-- The pattern ends for the first time where it ends behind `before`. -/
  | first {before rest result : List Char} (first : ¬pattern <:+: (before ++ pattern).dropLast)
      (behind : Replaced pattern replacement rest result) :
      Replaced pattern replacement (before ++ pattern ++ rest) (before ++ replacement ++ result)

private theorem replaceCharacters_eq_drop (dropped : Nat) (text : List Char) :
    replaceCharacters pattern replacement dropped text =
      replaceCharacters pattern replacement 0 (text.drop dropped) := by
  induction text generalizing dropped with
  | nil => simp [replaceCharacters]
  | cons character rest ih =>
      cases dropped with
      | zero => rfl
      | succ dropped => exact ih dropped

private theorem replaceCharacters_append (nonempty : pattern ≠ []) (rest : List Char) :
    replaceCharacters pattern replacement 0 (pattern ++ rest) =
      replacement ++ replaceCharacters pattern replacement 0 rest := by
  obtain ⟨head, tail, rfl⟩ := List.exists_cons_of_ne_nil nonempty
  have here : (head :: tail).isPrefixOf (head :: (tail ++ rest)) :=
    List.isPrefixOf_iff_prefix.mpr ⟨rest, rfl⟩
  rw [List.cons_append, replaceCharacters, if_pos here, replaceCharacters_eq_drop]
  simp

/-- A character that no occurrence starts with stays. -/
private theorem Replaced.cons {character : Char} {text result : List Char}
    (nonempty : pattern ≠ []) (notHere : ¬pattern <+: character :: text)
    (replaced : Replaced pattern replacement text result) :
    Replaced pattern replacement (character :: text) (character :: result) := by
  cases replaced with
  | absent absent =>
      exact .absent fun occurs => (List.infix_cons_iff.mp occurs).elim notHere absent
  | @first before rest result first behind =>
      refine @Replaced.first _ _ (character :: before) rest result (fun occurs => ?_) behind
      have present : before ++ pattern ≠ [] := List.append_ne_nil_of_right_ne_nil before nonempty
      rw [List.cons_append, List.dropLast_cons_of_ne_nil present] at occurs
      rcases List.infix_cons_iff.mp occurs with starts | later
      · have shorter : (before ++ pattern).dropLast <+: before ++ pattern ++ rest :=
          (List.dropLast_prefix _).trans (List.prefix_append _ _)
        exact notHere (starts.trans (List.prefix_cons_inj character |>.mpr shorter))
      · exact first later

/-- Replacing goes through the occurrences of the pattern from the left. -/
theorem replaced_replaceCharacters (nonempty : pattern ≠ []) (text : List Char) :
    Replaced pattern replacement text (replaceCharacters pattern replacement 0 text) := by
  induction length : text.length using Nat.strongRecOn generalizing text with
  | ind length ih =>
      subst length
      by_cases starts : pattern <+: text
      · obtain ⟨rest, rfl⟩ := starts
        rw [replaceCharacters_append nonempty]
        have shorter : rest.length < (pattern ++ rest).length := by
          have := List.length_pos_iff.mpr nonempty
          rw [List.length_append]
          omega
        refine @Replaced.first _ _ [] rest _ (fun occurs => ?_) (ih _ shorter rest rfl)
        have fits := occurs.length_le
        have := List.length_pos_iff.mpr nonempty
        rw [List.nil_append, List.length_dropLast] at fits
        omega
      · cases text with
        | nil => exact .absent fun occurs => nonempty (List.eq_nil_of_infix_nil occurs)
        | cons character rest =>
            rw [replaceCharacters, if_neg (mt List.isPrefixOf_iff_prefix.mp starts)]
            exact (ih _ (Nat.lt_succ_self rest.length) rest rfl).cons nonempty starts

/-- Before the first occurrence of the pattern nothing is replaced. -/
private theorem replaceCharacters_first (nonempty : pattern ≠ []) {before : List Char}
    (first : ¬pattern <:+: (before ++ pattern).dropLast) (rest : List Char) :
    replaceCharacters pattern replacement 0 (before ++ pattern ++ rest) =
      before ++ replacement ++ replaceCharacters pattern replacement 0 rest := by
  induction before with
  | nil => simpa using replaceCharacters_append nonempty rest
  | cons character before ih =>
      have present : before ++ pattern ≠ [] := List.append_ne_nil_of_right_ne_nil before nonempty
      rw [List.cons_append, List.dropLast_cons_of_ne_nil present, List.infix_cons_iff,
        not_or] at first
      obtain ⟨notHere, notLater⟩ := first
      have fits : pattern.length ≤ (character :: (before ++ pattern).dropLast).length := by
        simp only [List.length_cons, List.length_dropLast, List.length_append]
        omega
      have notHere : ¬pattern <+: character :: (before ++ pattern ++ rest) := fun starts =>
        notHere <| List.prefix_of_prefix_length_le starts
          ((List.prefix_cons_inj character).mpr
            ((List.dropLast_prefix _).trans (List.prefix_append _ rest))) fits
      rw [List.cons_append, List.cons_append, replaceCharacters,
        if_neg (mt List.isPrefixOf_iff_prefix.mp notHere), ih notLater]
      rfl

/-- The occurrences of the pattern from the left determine the result. -/
theorem Replaced.eq_replaceCharacters (nonempty : pattern ≠ []) {text result : List Char}
    (replaced : Replaced pattern replacement text result) :
    result = replaceCharacters pattern replacement 0 text := by
  induction replaced with
  | absent absent => exact (replaceCharacters_eq_self absent).symm
  | first first _ ih => rw [ih, replaceCharacters_first nonempty first]

/-- Replacing a pattern that is not empty replaces its occurrences from the left. -/
theorem replace_eq_iff_replaced {pattern : String} (nonempty : pattern ≠ "")
    {replacement text result : String} :
    replace pattern replacement text = result ↔
      Replaced pattern.toList replacement.toList text.toList result.toList := by
  have present : pattern.toList ≠ [] := mt String.toList_eq_nil_iff.mp nonempty
  rw [replace, if_neg (mt String.isEmpty_iff.mp nonempty), ← String.toList_inj,
    String.toList_ofList]
  refine ⟨fun same => same ▸ replaced_replaceCharacters present text.toList, fun replaced => ?_⟩
  exact (replaced.eq_replaceCharacters present).symm

/-- The pattern does not occur in a text in which it was replaced. -/
theorem not_infix_replace {pattern replacement : String} (nonempty : pattern ≠ "")
    (visible : replacement ≠ "")
    (foreign : ∀ character ∈ pattern.toList, character ∉ replacement.toList) (text : String) :
    ¬pattern.toList <:+: (replace pattern replacement text).toList := by
  rw [replace, if_neg (mt String.isEmpty_iff.mp nonempty), String.toList_ofList]
  exact not_infix_replaceCharacters (mt String.toList_eq_nil_iff.mp nonempty)
    (mt String.toList_eq_nil_iff.mp visible) foreign 0 text.toList

/-- A text without the pattern stays as it is. -/
theorem replace_eq_self_of_absent {pattern text : String}
    (absent : ¬pattern.toList <:+: text.toList) (replacement : String) :
    replace pattern replacement text = text := by
  have nonempty : ¬pattern.isEmpty := by
    rw [String.isEmpty_iff]
    rintro rfl
    exact absent List.nil_infix
  rw [replace, if_neg nonempty, replaceCharacters_eq_self absent, String.ofList_toList]

/-- A pattern that was replaced is not replaced again. -/
theorem replace_replace {pattern replacement : String} (nonempty : pattern ≠ "")
    (visible : replacement ≠ "")
    (foreign : ∀ character ∈ pattern.toList, character ∉ replacement.toList) (text : String) :
    replace pattern replacement (replace pattern replacement text) =
      replace pattern replacement text :=
  replace_eq_self_of_absent (not_infix_replace nonempty visible foreign text) replacement

/-- A text in which a character of the pattern is missing stays as it is. -/
theorem replace_eq_self {pattern text : String} {character : Char}
    (inPattern : character ∈ pattern.toList) (missing : character ∉ text.toList)
    (replacement : String) : replace pattern replacement text = text :=
  replace_eq_self_of_absent (fun occurs => missing (occurs.subset inPattern)) replacement

/-- A text becomes one that lacks a character of the pattern and one of the replacement only if it
is that text. -/
theorem replace_eq_iff {pattern replacement text plain : String} {ofPattern ofReplacement : Char}
    (inPattern : ofPattern ∈ pattern.toList) (missing : ofPattern ∉ plain.toList)
    (inReplacement : ofReplacement ∈ replacement.toList) (foreign : ofReplacement ∉ plain.toList) :
    replace pattern replacement text = plain ↔ text = plain := by
  refine ⟨fun becomes => ?_, fun same => ?_⟩
  · by_cases occurs : pattern.toList <:+: text.toList
    · have present : pattern.toList ≠ [] := List.ne_nil_of_mem inPattern
      have comesIn := mem_replaceCharacters occurs present inReplacement
      rw [← becomes, replace, if_neg (by simpa using present), String.toList_ofList] at foreign
      exact absurd comesIn foreign
    · rwa [replace_eq_self_of_absent occurs] at becomes
  · rw [same]
    exact replace_eq_self inPattern missing replacement

end Text

end DocPages
