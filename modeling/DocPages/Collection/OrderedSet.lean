import DocPages.Collection.StableSort

/-!
# Ordered sets

A finite set listed in ascending order of its elements. Only an element that equals its successor
is a repetition: two different elements that compare as equal are both kept.
-/

namespace DocPages

/-- A set of elements in ascending order. -/
structure OrderedSet (α : Type) where
  /-- The elements in ascending order. -/
  toList : List α
deriving DecidableEq, Repr

namespace OrderedSet

variable {α : Type}

/-- The set without elements. -/
def empty : OrderedSet α := ⟨[]⟩

instance : EmptyCollection (OrderedSet α) := ⟨empty⟩

instance : Inhabited (OrderedSet α) := ⟨empty⟩

/-- The set of one element. -/
def singleton (element : α) : OrderedSet α := ⟨[element]⟩

/-- The set has no element. -/
def isEmpty (set : OrderedSet α) : Bool := set.toList.isEmpty

def size (set : OrderedSet α) : Nat := set.toList.length

/-- A list without the elements that equal their successor. -/
def dropRepeats [DecidableEq α] : List α → List α
  | [] => []
  | element :: rest =>
    match rest with
    | [] => [element]
    | next :: _ => if element = next then dropRepeats rest else element :: dropRepeats rest

theorem mem_dropRepeats [DecidableEq α] {element : α} {elements : List α} :
    element ∈ dropRepeats elements ↔ element ∈ elements := by
  induction elements with
  | nil => simp [dropRepeats]
  | cons head tail ih =>
    cases tail with
    | nil => simp [dropRepeats]
    | cons next rest =>
      unfold dropRepeats
      by_cases repeated : head = next
      · simp [repeated, ih]
      · simp [repeated, ih]

variable [Ord α]

/-- An element that compares as equal is in the set. -/
def contains (set : OrderedSet α) (element : α) : Bool :=
  set.toList.any fun member => compare member element == .eq

variable [DecidableEq α]

/-- The set of the elements of a list. -/
def ofList (elements : List α) : OrderedSet α :=
  ⟨dropRepeats (sortBy compare elements)⟩

/-- The elements of either set. -/
def union (left right : OrderedSet α) : OrderedSet α :=
  ofList (left.toList ++ right.toList)

/-- The set with one more element. -/
def insert (element : α) (set : OrderedSet α) : OrderedSet α :=
  ofList (element :: set.toList)

/-- The elements of the first set that are not in the second. -/
def difference (left right : OrderedSet α) : OrderedSet α :=
  ⟨left.toList.filter fun element => !right.contains element⟩

@[simp]
theorem mem_ofList {element : α} {elements : List α} :
    element ∈ (ofList elements).toList ↔ element ∈ elements := by
  simp [ofList, mem_dropRepeats]

@[simp]
theorem mem_union {element : α} {left right : OrderedSet α} :
    element ∈ (left.union right).toList ↔ element ∈ left.toList ∨ element ∈ right.toList := by
  simp [union]

end OrderedSet

end DocPages
