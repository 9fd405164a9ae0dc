import DocPages.Collection.Comparison

/-!
# Laws of comparisons

Comparisons of optional values inherit the laws of the comparison of the values, wherever the absent
value stands. The alphabetical order is total, and only equal names compare as equal.
-/

namespace DocPages

variable {α β : Type}

section

variable {place : AbsentPlace} {compare : α → α → Ordering}

instance [Std.TransCmp compare] : Std.TransCmp (compareAbsent place compare) where
  eq_swap {left right} := by
    cases left with
    | none =>
        cases right with
        | none => rfl
        | some right => exact Ordering.swap_swap.symm
    | some left =>
        cases right with
        | none => rfl
        | some right =>
            have values : compare left right = (compare right left).swap := Std.OrientedCmp.eq_swap
            exact values
  isLE_trans {first second third} below above := by
    cases first with
    | none =>
        cases second with
        | none => exact above
        | some second =>
            cases third with
            | none => rfl
            | some third => exact below
    | some first =>
        cases second with
        | none =>
            cases third with
            | none => exact below
            -- What is there does not stand on both sides of what is absent.
            | some third =>
                cases place with
                | first => cases below
                | last => cases above
        | some second =>
            cases third with
            | none => exact above
            | some third =>
                have values : (compare first third).isLE := Std.TransCmp.isLE_trans below above
                exact values

instance [Std.LawfulEqCmp compare] : Std.LawfulEqCmp (compareAbsent place compare) where
  compare_self {value} := by
    cases value with
    | none => rfl
    | some value =>
        have same : compare value value = .eq := Std.ReflCmp.compare_self
        exact same
  eq_of_compare {left right} equal := by
    cases left with
    | none =>
        cases right with
        | none => rfl
        | some right => cases place <;> cases equal
    | some left =>
        cases right with
        | none => cases place <;> cases equal
        | some right => exact congrArg some (Std.LawfulEqCmp.eq_of_compare equal)

end

/-- Optional values that tie are equal if values that tie are. -/
theorem eq_of_compare_option [Ord α] {left right : Option α}
    (values : ∀ first ∈ left, ∀ second ∈ right,
      Ord.compare first second = .eq → first = second)
    (tied : Ord.compare left right = .eq) : left = right := by
  cases left with
  | none =>
      cases right with
      | none => rfl
      | some second => cases tied
  | some first =>
      cases right with
      | none => cases tied
      | some second => exact congrArg some (values first rfl second rfl tied)

/-- A comparison of images inherits the laws of the comparison. -/
theorem transCmp_on {compare : β → β → Ordering} (laws : Std.TransCmp compare) (image : α → β) :
    Std.TransCmp fun left right => compare (image left) (image right) where
  eq_swap := Std.OrientedCmp.eq_swap
  isLE_trans below above := Std.TransCmp.isLE_trans below above

/-- A comparison that falls back on a second one inherits the laws of both. -/
theorem transCmp_then {first second : α → α → Ordering} (firstLaws : Std.TransCmp first)
    (secondLaws : Std.TransCmp second) :
    Std.TransCmp fun left right => (first left right).then (second left right) :=
  inferInstanceAs (Std.TransCmp (compareLex first second))

instance : Std.TransCmp compareAlphabetically :=
  transCmp_then (transCmp_on inferInstance Text.lowercase) inferInstance

instance : Std.LawfulEqCmp compareAlphabetically where
  compare_self := by
    simp [compareAlphabetically]
  eq_of_compare equal := by
    rw [compareAlphabetically, Ordering.then_eq_eq] at equal
    exact Std.LawfulEqCmp.eq_of_compare equal.2

end DocPages
