/-!
# Stable sorting

Insertion sort by a three-way comparison. Elements that compare as equal keep their input order,
because an element is placed before those it does not exceed and the input is taken from its end.
-/

namespace DocPages

variable {α : Type}

/-- A list with an element placed before the first one that it does not exceed. -/
def insertBy (compare : α → α → Ordering) (element : α) : List α → List α
  | [] => [element]
  | head :: tail =>
    if (compare element head).isLE then element :: head :: tail
    else head :: insertBy compare element tail

/-- The elements of a list in ascending order, equal ones in input order. -/
def sortBy (compare : α → α → Ordering) : List α → List α
  | [] => []
  | head :: tail => insertBy compare head (sortBy compare tail)

theorem insertBy_perm (compare : α → α → Ordering) (element : α) (elements : List α) :
    (insertBy compare element elements).Perm (element :: elements) := by
  induction elements with
  | nil => exact .refl _
  | cons head tail ih =>
    unfold insertBy
    split
    · exact .refl _
    · exact (ih.cons head).trans (.swap element head tail)

theorem sortBy_perm (compare : α → α → Ordering) (elements : List α) :
    (sortBy compare elements).Perm elements := by
  induction elements with
  | nil => exact .refl _
  | cons head tail ih => exact (insertBy_perm compare head _).trans (ih.cons head)

@[simp]
theorem mem_sortBy {compare : α → α → Ordering} {element : α} {elements : List α} :
    element ∈ sortBy compare elements ↔ element ∈ elements :=
  (sortBy_perm compare elements).mem_iff

end DocPages
