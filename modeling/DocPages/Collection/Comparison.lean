import DocPages.Text.Lowercase

/-!
# Comparisons

Three-way comparisons of optional values, with the absent one at either end, and the alphabetical
order of names.
-/

namespace DocPages

variable {α : Type}

/-- Where absent values stand among optional ones. -/
inductive AbsentPlace where
  | first
  | last

/-- How an absent value compares with one that is there. -/
def AbsentPlace.order : AbsentPlace → Ordering
  | .first => .lt
  | .last => .gt

/-- Optional values with the absent one at a place. -/
def compareAbsent (place : AbsentPlace) (compare : α → α → Ordering) :
    Option α → Option α → Ordering
  | none, none => .eq
  | none, some _ => place.order
  | some _, none => place.order.swap
  | some left, some right => compare left right

/-- Optional values with the absent one first. -/
abbrev compareAbsentFirst (compare : α → α → Ordering) : Option α → Option α → Ordering :=
  compareAbsent .first compare

/-- Optional values with the absent one last. -/
abbrev compareAbsentLast (compare : α → α → Ordering) : Option α → Option α → Ordering :=
  compareAbsent .last compare

/-- Names by their lowercase forms, and names that differ in case only by their spelling. -/
def compareAlphabetically (left right : String) : Ordering :=
  (compare (Text.lowercase left) (Text.lowercase right)).then (compare left right)

end DocPages
