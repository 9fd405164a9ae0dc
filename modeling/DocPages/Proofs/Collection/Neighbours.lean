import DocPages.Proofs.Collection.Grouping
import DocPages.Proofs.Collection.OrderedSet
import Mathlib.Data.List.Destutter

/-!
# Neighbours of one key

A list in which an item is dropped if it has the key of the one before it shows every key once for
each of its runs. So it shows the first item of every key exactly if the items of one key stand
together.
-/

namespace DocPages

variable {α κ : Type} [DecidableEq κ]

theorem OrderedSet.dropRepeats_eq_destutter (elements : List κ) :
    dropRepeats elements = elements.destutter (· ≠ ·) := by
  induction elements with
  | nil => rfl
  | cons head tail ih =>
      cases tail with
      | nil => rfl
      | cons next rest =>
          rw [List.destutter_cons'] at ih
          rw [dropRepeats, ih, List.destutter_cons']
          split
          · rename_i repeated
            rw [List.destutter'_cons_neg rest (not_not.mpr repeated), repeated]
          · rename_i different
            rw [List.destutter'_cons_pos rest different]

/-- Dropping an item behind one of its key drops no first item. -/
private theorem distinctByAfter_destutter' (key : α → κ) (seen : List κ) (head : α)
    (items : List α) :
    distinctByAfter key seen (items.destutter' (fun first second => key first ≠ key second) head) =
      distinctByAfter key seen (head :: items) := by
  induction items generalizing seen head with
  | nil => rfl
  | cons next items ih =>
      by_cases repeated : key head = key next
      · rw [List.destutter'_cons_neg items (not_not.mpr repeated), ih]
        by_cases old : key head ∈ seen <;> simp [distinctByAfter, old, ← repeated]
      · rw [List.destutter'_cons_pos items repeated, distinctByAfter, distinctByAfter, ih, ih]

theorem distinctBy_destutter (key : α → κ) (items : List α) :
    distinctBy key (items.destutter fun first second => key first ≠ key second) =
      distinctBy key items := by
  cases items with
  | nil => rfl
  | cons head items => exact distinctByAfter_destutter' key [] head items

/-- The items that do not have the key of the one before them are the first of their keys exactly if
no other key stands between two that are equal. -/
theorem destutter_eq_distinctBy_iff (key : α → κ) (items : List α) :
    (items.destutter fun first second => key first ≠ key second) = distinctBy key items ↔
      ∀ value other, [value, other, value].Sublist (items.map key) → other = value := by
  rw [← OrderedSet.nodup_dropRepeats_iff, OrderedSet.dropRepeats_eq_destutter,
    ← List.map_destutter (R := fun first second => key first ≠ key second) fun _ _ _ _ => Iff.rfl,
    List.Nodup, List.pairwise_map]
  constructor
  · intro same
    rw [same]
    exact pairwise_distinctBy key items
  · intro apart
    rw [← distinctBy_destutter, distinctBy_eq_self apart]

end DocPages
