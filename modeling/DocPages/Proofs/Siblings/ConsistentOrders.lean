import DocPages.Content.Kind
import DocPages.Proofs.Collection.OrderedSet
import DocPages.Proofs.Siblings.RowOrder

/-!
# Consistent orders

Whatever is sorted or kept in ascending order is compared by a total preorder. So there is one way
to sort it if elements that tie keep their order, and the set of a list ascends. Variants and
identities may tie without being equal; names and the keys of rows tie only if they are.
-/

namespace DocPages

variable {α : Type}

/-- The comparison is a total preorder. Elements that are compared by it, themselves or by a key,
can therefore be sorted stably in one way only. -/
structure IsConsistentOrder (compare : α → α → Ordering) : Prop where
  /-- Swapping what is compared reverses the result. -/
  swap : ∀ left right, compare right left = (compare left right).swap
  /-- What does not exceed something does not exceed what that does not exceed. -/
  trans : ∀ first second third, (compare first second).isLE → (compare second third).isLE →
    (compare first third).isLE
  /-- A list is sorted by the key, with ties in their order, exactly if it is what sorting gives. -/
  sorts : ∀ {β : Type} (key : β → α) (elements sorted : List β),
    let byKey := fun left right => compare (key left) (key right)
    IsStableSort byKey elements sorted ↔ sorted = sortBy byKey elements

theorem isConsistentOrder (compare : α → α → Ordering) [laws : Std.TransCmp compare] :
    IsConsistentOrder compare where
  swap _ _ := Std.OrientedCmp.eq_swap
  trans _ _ _ := Std.TransCmp.isLE_trans
  sorts key _ _ :=
    have := transCmp_on laws key
    isStableSort_iff

/-- The set of any list has the elements of the list in ascending order. -/
def OrderedSet.IsAscending (α : Type) [Ord α] [DecidableEq α] : Prop :=
  ∀ elements : List α,
    (∀ element, element ∈ (ofList elements).toList ↔ element ∈ elements) ∧
      (ofList elements).toList.Pairwise fun first second => (compare first second).isLE

theorem OrderedSet.isAscending (α : Type) [Ord α] [DecidableEq α] [Std.TransOrd α] :
    IsAscending α :=
  fun elements => ⟨fun _ => mem_ofList, pairwise_isLE_ofList elements⟩

/-- The variants of a row, the keys of rows, names that may be absent, names, identities and texts
are each ordered consistently, and so are the elements of every ordered set. Names tie only if they
are the same, and keys of rows only if they are equal. -/
theorem isConsistentOrder_comparisons :
    IsConsistentOrder Declaration.compareVariants ∧
      IsConsistentOrder RowKey.compareKeys ∧
      IsConsistentOrder (compareAbsentLast compareAlphabetically) ∧
      IsConsistentOrder compareAlphabetically ∧
      IsConsistentOrder (compare : Dri → Dri → Ordering) ∧
      IsConsistentOrder (compare : String → String → Ordering) ∧
      (∀ left right, compareAlphabetically left right = .eq ↔ left = right) ∧
      (∀ left right, RowKey.compareKeys left right = .eq ↔ left = right) ∧
      OrderedSet.IsAscending Dri ∧ OrderedSet.IsAscending SourceSetId ∧
      OrderedSet.IsAscending Modifier ∧ OrderedSet.IsAscending Content.Style ∧
      OrderedSet.IsAscending String := by
  have names : ∀ left right, compareAlphabetically left right = .eq ↔ left = right :=
    fun _ _ => Std.LawfulEqCmp.compare_eq_iff_eq
  have keys : ∀ left right, RowKey.compareKeys left right = .eq ↔ left = right :=
    fun _ _ => Std.LawfulEqCmp.compare_eq_iff_eq
  refine ⟨isConsistentOrder _, isConsistentOrder _, isConsistentOrder _, isConsistentOrder _,
    isConsistentOrder _, isConsistentOrder _, names, keys, ?_⟩
  exact ⟨OrderedSet.isAscending Dri, OrderedSet.isAscending SourceSetId,
    OrderedSet.isAscending Modifier, OrderedSet.isAscending Content.Style,
    OrderedSet.isAscending String⟩

end DocPages
