import DocPages.Platform.SourceSet

/-!
# Values per source set

A finite map from source sets to values, listed in ascending order of the source sets. Every
operation keeps the keys strictly ascending, so equal maps have equal lists.
-/

namespace DocPages

/-- A value for each of some source sets. -/
structure Dependent (α : Type) where
  /-- The source sets with their values. -/
  entries : List (SourceSetId × α)
  /-- The source sets ascend strictly. -/
  ascending : entries.Pairwise fun left right => compare left.1 right.1 = .lt
deriving DecidableEq

namespace Dependent

variable {α : Type}

/-- The map without entries. -/
def empty : Dependent α := ⟨[], .nil⟩

instance : EmptyCollection (Dependent α) := ⟨empty⟩

instance : Inhabited (Dependent α) := ⟨empty⟩

/-- Ascending entries with one entry put in its place, over an entry of the same source set. -/
def insertEntry (id : SourceSetId) (value : α) :
    List (SourceSetId × α) → List (SourceSetId × α)
  | [] => [(id, value)]
  | (other, old) :: rest =>
    match compare id other with
    | .lt => (id, value) :: (other, old) :: rest
    | .eq => (id, value) :: rest
    | .gt => (other, old) :: insertEntry id value rest

theorem mem_insertEntry {id : SourceSetId} {value : α} {entries : List (SourceSetId × α)}
    {entry : SourceSetId × α} (member : entry ∈ insertEntry id value entries) :
    entry = (id, value) ∨ entry ∈ entries := by
  induction entries with
  | nil => simpa [insertEntry] using member
  | cons head tail ih =>
    unfold insertEntry at member
    split at member <;> grind

theorem ascending_insertEntry {id : SourceSetId} {value : α}
    {entries : List (SourceSetId × α)}
    (ascending : entries.Pairwise fun left right => compare left.1 right.1 = .lt) :
    (insertEntry id value entries).Pairwise fun left right => compare left.1 right.1 = .lt := by
  induction entries with
  | nil => simp [insertEntry]
  | cons head tail ih =>
    obtain ⟨below, rest⟩ := List.pairwise_cons.1 ascending
    unfold insertEntry
    split
    · rename_i less
      refine .cons (fun entry member => ?_) ascending
      rcases List.mem_cons.1 member with rfl | member
      · exact less
      · exact Std.TransCmp.lt_trans less (below entry member)
    · rename_i equal
      obtain rfl := Std.LawfulEqCmp.eq_of_compare equal
      exact .cons below rest
    · rename_i greater
      refine .cons (fun entry member => ?_) (ih rest)
      rcases mem_insertEntry member with rfl | member
      · exact Std.OrientedCmp.lt_of_gt greater
      · exact below entry member

/-- The map with a value for one source set, in place of an earlier one. -/
def insert (map : Dependent α) (id : SourceSetId) (value : α) : Dependent α :=
  ⟨insertEntry id value map.entries, ascending_insertEntry map.ascending⟩

/-- The map of the listed entries, of which the last for a source set counts. -/
def ofList (entries : List (SourceSetId × α)) : Dependent α :=
  entries.foldl (fun map entry => map.insert entry.1 entry.2) empty

/-- The same value for every listed source set. -/
def uniform (ids : List SourceSetId) (value : α) : Dependent α :=
  ofList (ids.map fun id => (id, value))

/-- The value for a source set. -/
def get? (map : Dependent α) (id : SourceSetId) : Option α :=
  (map.entries.find? fun entry => entry.1 = id).map Prod.snd

/-- The source sets that have a value. -/
def keys (map : Dependent α) : List SourceSetId :=
  map.entries.map Prod.fst

/-- The values in ascending order of their source sets. -/
def values (map : Dependent α) : List α :=
  map.entries.map Prod.snd

/-- The first map with the entries of the second; where both have a value, `combine` unites the
earlier and the later one. -/
def mergeWith (combine : α → α → α) (left right : Dependent α) : Dependent α :=
  right.entries.foldl
    (fun map entry =>
      map.insert entry.1 <|
        match map.get? entry.1 with
        | some earlier => combine earlier entry.2
        | none => entry.2)
    left

end Dependent

end DocPages
