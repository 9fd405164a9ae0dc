/-!
# Grouping by a key

Groups and their members keep the order in which the input shows them first.
-/

namespace DocPages

variable {α κ : Type} [DecidableEq κ]

/-- Groups with an item added to the group of its key, which is opened at the end if absent. -/
def addToGroup (key : κ) (item : α) : List (κ × List α) → List (κ × List α)
  | [] => [(key, [item])]
  | (other, members) :: groups =>
    if other = key then (other, members ++ [item]) :: groups
    else (other, members) :: addToGroup key item groups

/-- The groups of equal key with their keys, in order of first appearance. -/
def groupByFirstSeenKeyed (key : α → κ) (items : List α) : List (κ × List α) :=
  items.foldl (fun groups item => addToGroup (key item) item groups) []

/-- The groups of equal key, in order of first appearance. -/
def groupByFirstSeen (key : α → κ) (items : List α) : List (List α) :=
  (groupByFirstSeenKeyed key items).map Prod.snd

/-- The items whose key is neither among the seen ones nor that of an earlier item. -/
def distinctByAfter (key : α → κ) (seen : List κ) : List α → List α
  | [] => []
  | item :: rest =>
    if key item ∈ seen then distinctByAfter key seen rest
    else item :: distinctByAfter key (key item :: seen) rest

/-- The first item of every key. -/
def distinctBy (key : α → κ) (items : List α) : List α :=
  distinctByAfter key [] items

end DocPages
