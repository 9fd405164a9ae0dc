/-!
# Functions that go through a list

A recursion over trees goes through lists of trees with a function of its own. What such a function
gives for a list is put together from what is given for each element.
-/

namespace DocPages

variable {α β : Type} {all : List α → List β} (nil : all [] = [])

include nil

/-- A function that gives one result for each element is the map of what it gives for them. -/
theorem eq_map_of_cons {each : α → β}
    (cons : ∀ head tail, all (head :: tail) = each head :: all tail) (elements : List α) :
    all elements = elements.map each := by
  induction elements with
  | nil => exact nil
  | cons head tail ih => rw [cons, ih, List.map_cons]

/-- A function that gives any number of results for each element joins what it gives for them. -/
theorem eq_flatMap_of_cons {each : α → List β}
    (cons : ∀ head tail, all (head :: tail) = each head ++ all tail) (elements : List α) :
    all elements = elements.flatMap each := by
  induction elements with
  | nil => exact nil
  | cons head tail ih => rw [cons, ih, List.flatMap_cons]

end DocPages
