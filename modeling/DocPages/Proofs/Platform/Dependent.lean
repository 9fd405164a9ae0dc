import Mathlib.Data.List.Nodup
import DocPages.Platform.Dependent

/-!
# Laws of values per source set

A map is fixed by the value it holds for each source set. Uniting two maps unites their values
source set by source set, so an associative way of uniting values gives an associative way of
uniting maps.
-/

namespace DocPages

namespace Dependent

variable {α : Type}

private theorem find?_insertEntry (id other : SourceSetId) (value : α)
    (entries : List (SourceSetId × α)) :
    ((insertEntry id value entries).find? fun entry => entry.1 = other).map Prod.snd =
      if id = other then some value
      else (entries.find? fun entry => entry.1 = other).map Prod.snd := by
  induction entries with
  | nil => by_cases same : id = other <;> simp [insertEntry, same]
  | cons head tail ih =>
      obtain ⟨key, old⟩ := head
      rw [insertEntry]
      split
      · by_cases same : id = other <;> simp [same]
      · rename_i equal
        obtain rfl := Std.LawfulEqCmp.eq_of_compare equal
        by_cases same : id = other <;> simp [same]
      · rename_i greater
        have different : key ≠ id := by
          rintro rfl
          simp at greater
        by_cases found : key = other
        · simp [found, found ▸ different.symm]
        · simp [found, ih]

/-- Putting a value in changes the value of its source set only. -/
theorem get?_insert (map : Dependent α) (id other : SourceSetId) (value : α) :
    (map.insert id value).get? other = if id = other then some value else map.get? other :=
  find?_insertEntry id other value map.entries

private theorem find?_eq_some_iff {entries : List (SourceSetId × α)}
    (distinct : entries.Pairwise fun first second => first.1 ≠ second.1) {id : SourceSetId}
    {value : α} :
    (entries.find? fun entry => entry.1 = id).map Prod.snd = some value ↔
      (id, value) ∈ entries := by
  induction entries with
  | nil => simp
  | cons head tail ih =>
      obtain ⟨key, held⟩ := head
      obtain ⟨headDistinct, tailDistinct⟩ := List.pairwise_cons.mp distinct
      by_cases found : key = id
      · subst found
        have notInTail : (key, value) ∉ tail := fun member => headDistinct _ member rfl
        simp [notInTail, eq_comm]
      · simp [found, ih tailDistinct, Ne.symm found]

private theorem keys_distinct (map : Dependent α) :
    map.entries.Pairwise fun first second => first.1 ≠ second.1 :=
  map.ascending.imp fun {first second} below same => by
    simp [same] at below

/-- A map holds exactly its entries. -/
theorem get?_eq_some_iff {map : Dependent α} {id : SourceSetId} {value : α} :
    map.get? id = some value ↔ (id, value) ∈ map.entries :=
  find?_eq_some_iff map.keys_distinct

/-- Maps that hold the same values are equal. -/
theorem eq_of_get?_eq {left right : Dependent α} (same : ∀ id, left.get? id = right.get? id) :
    left = right := by
  have sameEntries : ∀ entry, entry ∈ left.entries ↔ entry ∈ right.entries := fun entry => by
    rw [← get?_eq_some_iff, ← get?_eq_some_iff, same]
  have nodup : ∀ map : Dependent α, map.entries.Nodup := fun map =>
    map.keys_distinct.imp fun different same => different (congrArg Prod.fst same)
  have perm : left.entries.Perm right.entries :=
    (List.perm_ext_iff_of_nodup (nodup left) (nodup right)).mpr sameEntries
  have equal : left.entries = right.entries :=
    perm.eq_of_pairwise
      (fun first second _ _ (below : compare first.1 second.1 = .lt) above =>
        absurd above (Std.OrientedCmp.not_lt_of_lt below))
      left.ascending right.ascending
  cases left
  cases right
  exact (mk.injEq _ _ _ _).mpr equal

private theorem get?_foldl (combine : α → α → α) {entries : List (SourceSetId × α)}
    (distinct : entries.Pairwise fun first second => first.1 ≠ second.1) (map : Dependent α)
    (id : SourceSetId) :
    (entries.foldl
        (fun map entry =>
          map.insert entry.1 <|
            match map.get? entry.1 with
            | some earlier => combine earlier entry.2
            | none => entry.2)
        map).get? id =
      (map.get? id).merge combine ((entries.find? fun entry => entry.1 = id).map Prod.snd) := by
  induction entries generalizing map with
  | nil => simp
  | cons head tail ih =>
      obtain ⟨key, value⟩ := head
      obtain ⟨headDistinct, tailDistinct⟩ := List.pairwise_cons.mp distinct
      rw [List.foldl_cons, ih tailDistinct, get?_insert]
      by_cases found : key = id
      · subst found
        have absent : (tail.find? fun entry => entry.1 = key) = none :=
          List.find?_eq_none.mpr fun entry member => by
            simpa using (headDistinct entry member).symm
        cases held : map.get? key <;> simp [absent]
      · simp [found]

/-- Uniting maps unites their values source set by source set. -/
theorem get?_mergeWith (combine : α → α → α) (left right : Dependent α) (id : SourceSetId) :
    (left.mergeWith combine right).get? id = (left.get? id).merge combine (right.get? id) :=
  get?_foldl combine right.keys_distinct left id

/-- Maps are united associatively if their values are. -/
theorem mergeWith_assoc {combine : α → α → α} [Std.Associative combine]
    (first second third : Dependent α) :
    (first.mergeWith combine second).mergeWith combine third =
      first.mergeWith combine (second.mergeWith combine third) := by
  refine eq_of_get?_eq fun id => ?_
  simp only [get?_mergeWith]
  exact Std.Associative.assoc _ _ _

end Dependent

end DocPages
