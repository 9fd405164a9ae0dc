import DocPages.Collection.OrderedSet
import DocPages.Proofs.Collection.Sorting
import Mathlib.Data.Finset.Card

/-!
# Laws of ordered sets

An element repeats in the set of a list only if another one that ties with it stands in between.
Where the comparison tells the elements of a list apart, its set ascends strictly, so sets of the
same elements are equal. Unions are then associative, and putting an element in twice changes no
more than putting it in once.
-/

namespace DocPages

namespace OrderedSet

/-! ## Repetitions -/

section

variable {α : Type} [DecidableEq α]

private theorem dropRepeats_replicate (count : Nat) (element : α) :
    dropRepeats (List.replicate (count + 1) element) = [element] := by
  induction count with
  | zero => rfl
  | succ count ih =>
      rw [List.replicate_succ, List.replicate_succ, dropRepeats, ← List.replicate_succ, ih]
      simp

/-- The set of a list that repeats one element has that element only. -/
theorem toList_ofList_of_forall_eq [Ord α] {elements : List α} {element : α}
    (nonempty : elements ≠ []) (same : ∀ other ∈ elements, other = element) :
    (ofList elements).toList = [element] := by
  have sorted : sortBy compare elements = List.replicate elements.length element :=
    List.eq_replicate_iff.mpr
      ⟨(sortBy_perm compare elements).length_eq,
        fun other member => same other (mem_sortBy.mp member)⟩
  obtain ⟨count, length⟩ := Nat.exists_eq_succ_of_ne_zero (List.length_eq_zero_iff.not.mpr nonempty)
  rw [ofList, sorted, length]
  exact dropRepeats_replicate count element

theorem dropRepeats_sublist (elements : List α) : (dropRepeats elements).Sublist elements := by
  induction elements with
  | nil => exact .refl _
  | cons head tail ih =>
      cases tail with
      | nil => exact .refl _
      | cons next rest =>
          rw [dropRepeats]
          split
          · exact ih.cons head
          · exact ih.cons_cons head

/-- Among the elements of a list that do not equal their successors, no element repeats exactly if
in the list no other element stands between two equal ones. -/
theorem nodup_dropRepeats_iff {elements : List α} :
    (dropRepeats elements).Nodup ↔
      ∀ element other, [element, other, element].Sublist elements → other = element := by
  induction elements with
  | nil => simp [dropRepeats]
  | cons head tail ih =>
      cases tail with
      | nil => simp [dropRepeats]
      | cons next rest =>
          rw [dropRepeats]
          by_cases repeated : head = next
          · subst repeated
            rw [if_pos rfl, ih]
            refine ⟨fun together element other between => ?_, fun together element other between =>
              together element other (between.cons head)⟩
            cases between with
            | cons _ inTail => exact together element other inTail
            | cons_cons _ behind =>
                cases behind with
                | cons _ inRest => exact together _ other (inRest.cons_cons _)
                | cons_cons _ _ => rfl
          · rw [if_neg repeated, List.nodup_cons, ih, mem_dropRepeats]
            constructor
            · rintro ⟨fresh, together⟩ element other between
              cases between with
              | cons _ inTail => exact together element other inTail
              | cons_cons _ behind => exact (fresh (behind.subset (by simp))).elim
            · intro together
              refine ⟨fun again => ?_, fun element other between =>
                together element other (between.cons head)⟩
              have inRest : head ∈ rest := (List.mem_cons.mp again).resolve_left repeated
              have between : [head, next, head].Sublist (head :: next :: rest) :=
                ((List.singleton_sublist.mpr inRest).cons_cons next).cons_cons head
              exact repeated (together head next between).symm

/-- A list with different elements has a set of several elements. -/
theorem one_lt_size_ofList_iff [Ord α] {elements : List α} :
    1 < (ofList elements).size ↔
      ∃ first ∈ elements, ∃ second ∈ elements, first ≠ second := by
  constructor
  · intro several
    by_contra same
    push Not at same
    cases elements with
    | nil => exact (Nat.not_lt_zero 1 several).elim
    | cons element rest =>
        have single : (ofList (element :: rest)).toList = [element] :=
          toList_ofList_of_forall_eq (List.cons_ne_nil _ _) fun other member =>
            same other member element List.mem_cons_self
        rw [size, single] at several
        exact (Nat.lt_irrefl 1 several).elim
  · rintro ⟨first, isFirst, second, isSecond, different⟩
    by_contra few
    obtain ⟨element, rest, listed⟩ :=
      List.exists_cons_of_ne_nil (List.ne_nil_of_mem (mem_ofList.mpr isFirst))
    rw [size, listed, List.length_cons] at few
    obtain rfl : rest = [] := List.length_eq_zero_iff.mp (by omega)
    rw [← mem_ofList, listed, List.mem_singleton] at isFirst isSecond
    exact different (isFirst.trans isSecond.symm)

/-- No element of the set of a list repeats exactly if in the list no other element that ties
stands between two equal ones. -/
theorem nodup_ofList_iff [Ord α] [Std.TransOrd α] {elements : List α} :
    (ofList elements).toList.Nodup ↔
      ∀ element other, [element, other, element].Sublist elements →
        compare element other = .eq → other = element := by
  have ties : ∀ {element other : α}, compare element other = .eq →
      ∀ member ∈ [element, other, element], compare element member = .eq := by
    intro element other tied
    simp [tied]
  rw [ofList, nodup_dropRepeats_iff]
  refine forall₂_congr fun element other =>
    ⟨fun together between tied => ?_, fun apart between => ?_⟩
  · exact together ((sublist_sortBy_iff (ties tied)).mpr between)
  · -- What stands between two equal elements of a sorted list ties with them.
    have sorted : (sortBy compare elements).Pairwise fun first second =>
        (compare first second).isLE := ascending_sortBy elements
    have ascending := sorted.sublist between
    have tied : compare element other = .eq := by
      simp only [List.pairwise_cons, List.mem_cons, List.not_mem_nil, or_false] at ascending
      exact Std.OrientedCmp.isLE_antisymm (ascending.1 other (.inl rfl)) (ascending.2.1 element rfl)
    exact apart ((sublist_sortBy_iff (ties tied)).mp between) tied

/-- The set of a list has as many elements as there are different ones in the list exactly if in the
list no other element that ties stands between two equal ones. -/
theorem size_ofList_eq_card_iff [Ord α] [Std.TransOrd α] {elements : List α} :
    (ofList elements).size = elements.toFinset.card ↔
      ∀ element other, [element, other, element].Sublist elements →
        compare element other = .eq → other = element := by
  have sameElements : (ofList elements).toList.toFinset = elements.toFinset := by
    ext element
    simp
  rw [← nodup_ofList_iff, ← sameElements, size]
  constructor
  · intro sameSize
    exact Multiset.toFinset_card_eq_card_iff_nodup.mp sameSize.symm
  · exact fun nodup => (List.toFinset_card_of_nodup nodup).symm

end

/-! ## Sets without ties -/

variable {α : Type} [Ord α] [DecidableEq α] [Std.TransOrd α]

private theorem ascending_dropRepeats {elements : List α}
    (ascending : elements.Pairwise fun first second => (compare first second).isLE)
    (distinct : ∀ first ∈ elements, ∀ second ∈ elements,
      compare first second = .eq → first = second) :
    (dropRepeats elements).Pairwise fun first second => compare first second = .lt := by
  induction elements with
  | nil => exact .nil
  | cons head tail ih =>
      obtain ⟨above, tailAscending⟩ := List.pairwise_cons.mp ascending
      have tailStrict := ih tailAscending fun first isFirst second isSecond =>
        distinct first (List.mem_cons_of_mem head isFirst) second
          (List.mem_cons_of_mem head isSecond)
      cases tail with
      | nil => simp [dropRepeats]
      | cons next rest =>
          rw [dropRepeats]
          split
          · exact tailStrict
          · rename_i different
            have headBelow : compare head next = .lt := by
              refine (Ordering.isLE_iff_eq_lt_or_eq_eq.mp
                (above next List.mem_cons_self)).resolve_right fun equal => different ?_
              exact distinct head List.mem_cons_self next
                (List.mem_cons_of_mem head List.mem_cons_self) equal
            refine List.pairwise_cons.mpr ⟨fun other member => ?_, tailStrict⟩
            rcases List.mem_cons.mp (mem_dropRepeats.mp member) with rfl | inRest
            · exact headBelow
            · exact Std.TransCmp.lt_of_lt_of_isLE headBelow
                ((List.pairwise_cons.mp tailAscending).1 other inRest)

/-- The set of a list ascends. -/
theorem pairwise_isLE_ofList (elements : List α) :
    (ofList elements).toList.Pairwise fun first second => (compare first second).isLE :=
  (ascending_sortBy elements).sublist (dropRepeats_sublist _)

/-- The set of a list ascends strictly if the comparison tells the elements apart. -/
theorem ascending_ofList_of_distinct {elements : List α}
    (distinct : ∀ first ∈ elements, ∀ second ∈ elements,
      compare first second = .eq → first = second) :
    (ofList elements).toList.Pairwise fun first second => compare first second = .lt :=
  ascending_dropRepeats (ascending_sortBy elements) fun first isFirst second isSecond =>
    distinct first (mem_sortBy.mp isFirst) second (mem_sortBy.mp isSecond)

/-- Lists of the same elements have one set if the comparison tells the elements apart. -/
theorem ofList_congr_of_distinct {left right : List α}
    (distinct : ∀ first ∈ left, ∀ second ∈ left, compare first second = .eq → first = second)
    (same : ∀ element, element ∈ left ↔ element ∈ right) : ofList left = ofList right := by
  have distinctRight : ∀ first ∈ right, ∀ second ∈ right,
      compare first second = .eq → first = second := fun first isFirst second isSecond =>
    distinct first ((same first).mpr isFirst) second ((same second).mpr isSecond)
  have equal : (ofList left).toList.map id = (ofList right).toList.map id := by
    refine map_eq_of_ascending (ascending_ofList_of_distinct distinct)
      (ascending_ofList_of_distinct distinctRight) ?_ ?_ ?_
    · intro first isFirst
      exact ⟨first, mem_ofList.mpr ((same first).mp (mem_ofList.mp isFirst)),
        Std.ReflCmp.compare_self⟩
    · intro second isSecond
      exact ⟨second, mem_ofList.mpr ((same second).mpr (mem_ofList.mp isSecond)),
        Std.ReflCmp.compare_self⟩
    · intro first isFirst second isSecond
      exact distinct first (mem_ofList.mp isFirst) second
        ((same second).mpr (mem_ofList.mp isSecond))
  simpa [ofList] using equal

variable [Std.LawfulEqOrd α]

/-- The set of a list ascends strictly. -/
theorem ascending_ofList (elements : List α) :
    (ofList elements).toList.Pairwise fun first second => compare first second = .lt :=
  ascending_ofList_of_distinct fun _ _ _ _ => Std.LawfulEqCmp.eq_of_compare

/-- Lists of the same elements have one set. -/
theorem ofList_congr {left right : List α} (same : ∀ element, element ∈ left ↔ element ∈ right) :
    ofList left = ofList right :=
  ofList_congr_of_distinct (fun _ _ _ _ => Std.LawfulEqCmp.eq_of_compare) same

theorem union_assoc (first second third : OrderedSet α) :
    (first.union second).union third = first.union (second.union third) := by
  refine ofList_congr fun element => ?_
  simp [or_assoc]

/-- An element that was put in is not put in again. -/
@[simp]
theorem insert_insert (element : α) (set : OrderedSet α) :
    (set.insert element).insert element = set.insert element := by
  refine ofList_congr fun other => ?_
  simp [insert]

end OrderedSet

end DocPages
