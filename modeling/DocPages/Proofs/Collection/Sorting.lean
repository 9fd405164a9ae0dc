import DocPages.Collection.StableSort

/-!
# Sorted lists

The stable sort by a transitive comparison ascends. What order the input had shows in the output
only among elements that compare as equal: two strictly ascending lists of the same elements up to
that equality agree place by place.
-/

namespace DocPages

variable {α β : Type}

section

variable {compare : α → α → Ordering}

private theorem mem_insertBy {element other : α} {elements : List α} :
    other ∈ insertBy compare element elements ↔ other = element ∨ other ∈ elements := by
  rw [(insertBy_perm compare element elements).mem_iff, List.mem_cons]

private theorem ascending_insertBy [Std.TransCmp compare] (element : α) {elements : List α}
    (ascending : elements.Pairwise fun first second => (compare first second).isLE) :
    (insertBy compare element elements).Pairwise fun first second =>
      (compare first second).isLE := by
  induction elements with
  | nil => simp [insertBy]
  | cons head tail ih =>
      obtain ⟨above, tailAscending⟩ := List.pairwise_cons.mp ascending
      rw [insertBy]
      split
      · rename_i fits
        refine .cons (fun other member => ?_) ascending
        rcases List.mem_cons.mp member with rfl | inTail
        · exact fits
        · exact Std.TransCmp.isLE_trans fits (above other inTail)
      · rename_i exceeds
        refine .cons (fun other member => ?_) (ih tailAscending)
        rcases mem_insertBy.mp member with rfl | inTail
        · have greater : compare other head = .gt := by simpa using exceeds
          exact Ordering.isLE_of_eq_lt (Std.OrientedCmp.lt_of_gt greater)
        · exact above other inTail

/-- A sorted list ascends. -/
theorem ascending_sortBy [Std.TransCmp compare] (elements : List α) :
    (sortBy compare elements).Pairwise fun first second => (compare first second).isLE := by
  induction elements with
  | nil => exact .nil
  | cons head tail ih => exact ascending_insertBy head ih

/-- A list that ascends is sorted. -/
theorem sortBy_eq_self {elements : List α}
    (ascending : elements.Pairwise fun first second => (compare first second).isLE) :
    sortBy compare elements = elements := by
  induction elements with
  | nil => rfl
  | cons head tail ih =>
      obtain ⟨above, tailAscending⟩ := List.pairwise_cons.mp ascending
      rw [sortBy, ih tailAscending]
      cases tail with
      | nil => rfl
      | cons next rest => rw [insertBy, if_pos (above next List.mem_cons_self)]

private theorem filter_insertBy [Std.TransCmp compare] (value element : α) (elements : List α) :
    (insertBy compare element elements).filter (fun other => compare value other = .eq) =
      (element :: elements).filter fun other => compare value other = .eq := by
  induction elements with
  | nil => rfl
  | cons head tail ih =>
      rw [insertBy]
      split
      · rfl
      · rename_i exceeds
        rw [List.filter_cons, ih]
        -- The element exceeds the head, so that at most one of them ties with the value.
        by_cases elementTies : compare value element = .eq
        · have headApart : compare value head ≠ .eq := by
            intro headTies
            have tied : compare element head = .eq :=
              Std.TransCmp.eq_trans (Std.OrientedCmp.eq_symm elementTies) headTies
            simp [tied] at exceeds
          simp [elementTies, headApart]
        · simp [elementTies, List.filter_cons]

/-- Sorting keeps the order of the elements that tie with a value. -/
theorem filter_sortBy [Std.TransCmp compare] (value : α) (elements : List α) :
    (sortBy compare elements).filter (fun other => compare value other = .eq) =
      elements.filter fun other => compare value other = .eq := by
  induction elements with
  | nil => rfl
  | cons head tail ih => rw [sortBy, filter_insertBy, List.filter_cons, List.filter_cons, ih]

/-- Elements that tie stand one after another in the sorted list as they do in the input. -/
theorem sublist_sortBy_iff [Std.TransCmp compare] {value : α} {tied elements : List α}
    (ties : ∀ element ∈ tied, compare value element = .eq) :
    tied.Sublist (sortBy compare elements) ↔ tied.Sublist elements := by
  have among : ∀ {others : List α}, tied.Sublist others ↔
      tied.Sublist (others.filter fun other => compare value other = .eq) := by
    intro others
    have kept : tied.filter (fun other => compare value other = .eq) = tied :=
      List.filter_eq_self.mpr fun element member => decide_eq_true (ties element member)
    exact ⟨fun sub => kept ▸ sub.filter _, fun sub => sub.trans List.filter_sublist⟩
  rw [among, filter_sortBy, ← among]

/-- Elements that tie keep their order: how they are related in the input, earlier ones to later
ones, they are in the sorted list. -/
theorem stable_sortBy [Std.TransCmp compare] {before : α → α → Prop} {elements : List α}
    (ordered : elements.Pairwise before) :
    (sortBy compare elements).Pairwise fun first second =>
      compare first second = .lt ∨ compare first second = .eq ∧ before first second := by
  refine List.pairwise_iff_forall_sublist.mpr fun {first second} pair => ?_
  have ascending := List.pairwise_iff_forall_sublist.mp (ascending_sortBy elements) pair
  refine (Ordering.isLE_iff_eq_lt_or_eq_eq.mp ascending).imp id fun tied => ⟨tied, ?_⟩
  have reflexive : compare first first = .eq := Std.ReflCmp.compare_self
  have ties : ∀ element ∈ [first, second], compare first element = .eq := by
    simp [reflexive, tied]
  exact List.pairwise_iff_forall_sublist.mp ordered ((sublist_sortBy_iff ties).mp pair)

/-- The list has the elements in ascending order, those that tie in the order in which they are
given. -/
structure IsStableSort (compare : α → α → Ordering) (elements sorted : List α) : Prop where
  perm : sorted.Perm elements
  ascending : sorted.Pairwise fun first second => (compare first second).isLE
  stable : ∀ value, sorted.filter (fun other => compare value other = .eq) =
    elements.filter fun other => compare value other = .eq

section

variable [Std.TransCmp compare] {left right : List α}
  (alike : ∀ value, left.filter (fun other => compare value other = .eq) =
    right.filter fun other => compare value other = .eq)

include alike

private theorem mem_iff_of_filter_eq (value : α) : value ∈ left ↔ value ∈ right := by
  have reflexive : compare value value = .eq := Std.ReflCmp.compare_self
  have tied : value ∈ left.filter (fun other => compare value other = .eq) ↔
      value ∈ right.filter fun other => compare value other = .eq := by
    rw [alike value]
  simpa [reflexive] using tied

/-- Ascending lists are equal if the elements that tie with a value follow one another alike in
both, whatever the value is. -/
private theorem eq_of_ascending_of_filter_eq
    (leftAscending : left.Pairwise fun first second => (compare first second).isLE)
    (rightAscending : right.Pairwise fun first second => (compare first second).isLE) :
    left = right := by
  induction left generalizing right with
  | nil => exact (List.eq_nil_iff_forall_not_mem.mpr fun value member =>
      List.not_mem_nil ((mem_iff_of_filter_eq alike value).mpr member)).symm
  | cons first left ih =>
      cases right with
      | nil => exact (List.not_mem_nil ((mem_iff_of_filter_eq alike first).mp
          List.mem_cons_self)).elim
      | cons second right =>
          obtain ⟨firstBelow, restAscending⟩ := List.pairwise_cons.mp leftAscending
          obtain ⟨secondBelow, othersAscending⟩ := List.pairwise_cons.mp rightAscending
          have reflexive : ∀ value, compare value value = .eq := fun _ => Std.ReflCmp.compare_self
          -- Neither head exceeds the other, since each stands somewhere in the other list.
          have notAbove : (compare first second).isLE := by
            rcases List.mem_cons.mp ((mem_iff_of_filter_eq alike second).mpr List.mem_cons_self)
              with rfl | later
            · simp [reflexive]
            · exact firstBelow second later
          have notBelow : (compare second first).isLE := by
            rcases List.mem_cons.mp ((mem_iff_of_filter_eq alike first).mp List.mem_cons_self)
              with rfl | later
            · simp [reflexive]
            · exact secondBelow first later
          have tied : compare first second = .eq := Std.OrientedCmp.isLE_antisymm notAbove notBelow
          have heads := alike first
          rw [List.filter_cons_of_pos (by simp [reflexive]),
            List.filter_cons_of_pos (by simp [tied])] at heads
          obtain rfl : first = second := (List.cons.inj heads).1
          have tailsAlike : ∀ value, left.filter (fun other => compare value other = .eq) =
              right.filter fun other => compare value other = .eq := by
            intro value
            have wholes := alike value
            rw [List.filter_cons, List.filter_cons] at wholes
            split at wholes
            · exact (List.cons.inj wholes).2
            · exact wholes
          rw [ih tailsAlike restAscending othersAscending]

end

/-- A transitive comparison leaves one way to sort a list stably. -/
theorem isStableSort_iff [Std.TransCmp compare] {elements sorted : List α} :
    IsStableSort compare elements sorted ↔ sorted = sortBy compare elements := by
  constructor
  · intro sort
    refine eq_of_ascending_of_filter_eq (fun value => ?_) sort.ascending (ascending_sortBy elements)
    rw [sort.stable value, filter_sortBy]
  · rintro rfl
    exact ⟨sortBy_perm compare elements, ascending_sortBy elements,
      fun value => filter_sortBy value elements⟩

/-- If a comparison tells the elements of a list apart, every order of them sorts to one list. -/
theorem sortBy_eq_of_perm_of_distinct [Std.TransCmp compare] {left right : List α}
    (perm : left.Perm right)
    (distinct : ∀ first ∈ left, ∀ second ∈ left, compare first second = .eq → first = second) :
    sortBy compare left = sortBy compare right := by
  refine List.Perm.eq_of_pairwise (fun first second isLeft isRight notAbove notBelow => ?_)
    (ascending_sortBy left) (ascending_sortBy right) ?_
  · exact distinct first (mem_sortBy.mp isLeft) second (perm.mem_iff.mpr (mem_sortBy.mp isRight))
      (Std.OrientedCmp.isLE_antisymm notAbove notBelow)
  · exact (sortBy_perm compare left).trans (perm.trans (sortBy_perm compare right).symm)

/-- By a comparison that tells all elements apart, lists of the same elements sort to one list. -/
theorem sortBy_eq_of_perm [Std.TransCmp compare] [Std.LawfulEqCmp compare] {left right : List α}
    (perm : left.Perm right) : sortBy compare left = sortBy compare right :=
  sortBy_eq_of_perm_of_distinct perm fun _ _ _ _ => Std.LawfulEqCmp.eq_of_compare

/-- The least elements of two strictly ascending lists are equal if each has an equal element in the
other list. -/
private theorem compare_heads_eq [Std.TransCmp compare] {first second : α} {left right : List α}
    (firstBelow : ∀ other ∈ left, compare first other = .lt)
    (secondBelow : ∀ other ∈ right, compare second other = .lt)
    (firstCovered : ∃ matching ∈ second :: right, compare first matching = .eq)
    (secondCovered : ∃ matching ∈ first :: left, compare second matching = .eq) :
    compare first second = .eq := by
  obtain ⟨matching, isMatching, equal⟩ := firstCovered
  obtain ⟨source, isSource, sourceEqual⟩ := secondCovered
  rcases List.mem_cons.mp isMatching with rfl | inRight
  · exact equal
  rcases List.mem_cons.mp isSource with rfl | inLeft
  · exact Std.OrientedCmp.eq_symm sourceEqual
  -- Otherwise each of the two would lie strictly below the other.
  have below : compare first second = .lt :=
    Std.TransCmp.lt_of_lt_of_eq (firstBelow source inLeft) (Std.OrientedCmp.eq_symm sourceEqual)
  have above : compare second first = .lt :=
    Std.TransCmp.lt_of_lt_of_eq (secondBelow matching inRight) (Std.OrientedCmp.eq_symm equal)
  exact (Std.OrientedCmp.not_lt_of_lt below above).elim

/-- What lies above the head of a list has its equals in the tail of the other. -/
private theorem exists_equal_mem_tail [Std.TransCmp compare] {first second other : α}
    {right : List α} (heads : compare first second = .eq) (above : compare first other = .lt)
    (covered : ∃ matching ∈ second :: right, compare other matching = .eq) :
    ∃ matching ∈ right, compare other matching = .eq := by
  obtain ⟨matching, member, equal⟩ := covered
  rcases List.mem_cons.mp member with rfl | inRight
  · have same := Std.TransCmp.eq_trans heads (Std.OrientedCmp.eq_symm equal)
    simp [same] at above
  · exact ⟨matching, inRight, equal⟩

/-- Two strictly ascending lists, each element of which has an equal one in the other list, have the
same images place by place if equal elements have. -/
theorem map_eq_of_ascending [Std.TransCmp compare] {image : α → β} {left right : List α}
    (leftAscending : left.Pairwise fun first second => compare first second = .lt)
    (rightAscending : right.Pairwise fun first second => compare first second = .lt)
    (leftCovered : ∀ first ∈ left, ∃ second ∈ right, compare first second = .eq)
    (rightCovered : ∀ second ∈ right, ∃ first ∈ left, compare second first = .eq)
    (sameImage : ∀ first ∈ left, ∀ second ∈ right,
      compare first second = .eq → image first = image second) :
    left.map image = right.map image := by
  induction left generalizing right with
  | nil =>
      cases right with
      | nil => rfl
      | cons second right => simpa using rightCovered second List.mem_cons_self
  | cons first left ih =>
      cases right with
      | nil => simpa using leftCovered first List.mem_cons_self
      | cons second right =>
          obtain ⟨firstBelow, leftAscending⟩ := List.pairwise_cons.mp leftAscending
          obtain ⟨secondBelow, rightAscending⟩ := List.pairwise_cons.mp rightAscending
          have heads : compare first second = .eq :=
            compare_heads_eq firstBelow secondBelow (leftCovered first List.mem_cons_self)
              (rightCovered second List.mem_cons_self)
          rw [List.map_cons, List.map_cons,
            sameImage first List.mem_cons_self second List.mem_cons_self heads]
          congr 1
          apply ih leftAscending rightAscending
          · intro other member
            exact exists_equal_mem_tail heads (firstBelow other member)
              (leftCovered other (List.mem_cons_of_mem first member))
          · intro other member
            exact exists_equal_mem_tail (Std.OrientedCmp.eq_symm heads) (secondBelow other member)
              (rightCovered other (List.mem_cons_of_mem second member))
          · intro other member matching inRight
            exact sameImage other (List.mem_cons_of_mem first member) matching
              (List.mem_cons_of_mem second inRight)

end

private theorem insertBy_map (compare : β → β → Ordering) (image : α → β) (element : α)
    (elements : List α) :
    insertBy compare (image element) (elements.map image) =
      (insertBy (fun first second => compare (image first) (image second)) element elements).map
        image := by
  induction elements with
  | nil => rfl
  | cons head tail ih =>
      rw [List.map_cons, insertBy, insertBy]
      split
      · simp
      · rw [ih, List.map_cons]

/-- Sorting images is sorting by the comparison of the images. -/
theorem sortBy_map (compare : β → β → Ordering) (image : α → β) (elements : List α) :
    sortBy compare (elements.map image) =
      (sortBy (fun first second => compare (image first) (image second)) elements).map image := by
  induction elements with
  | nil => rfl
  | cons head tail ih => rw [List.map_cons, sortBy, sortBy, ih, insertBy_map]

end DocPages
