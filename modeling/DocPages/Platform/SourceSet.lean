import DocPages.Collection.OrderedSet
import DocPages.Text.Splitting

/-!
# Source sets

A source set is one compilation target of a module. Its identifier is written `scope/name`, where
the first slash ends the scope, so a scope holds no slash and a name may.
-/

namespace DocPages

/-- The identity of one compilation target. -/
structure SourceSetId where
  /-- The part of the build that the source set belongs to. -/
  scope : String
  /-- The name of the source set in its scope. -/
  name : String
deriving DecidableEq, Repr, Inhabited

namespace SourceSetId

/-- Identifiers are ordered by scope, then by name. -/
instance : Ord SourceSetId where
  compare left right := compareLex (compareOn scope) (compareOn name) left right

instance : Std.TransOrd SourceSetId :=
  inferInstanceAs (Std.TransCmp (compareLex (compareOn scope) (compareOn name)))

instance : Std.LawfulEqOrd SourceSetId where
  eq_of_compare {left right} equal := by
    have parts : (compareOn scope left right).then (compareOn name left right) = .eq := equal
    rw [Ordering.then_eq_eq] at parts
    cases left
    cases right
    simp_all [compareOn]

/-- The written form `scope/name`. -/
def display (id : SourceSetId) : String :=
  id.scope ++ "/" ++ id.name

/-- The identifier that a text spells, if it has something on either side of its first slash. -/
def ofText? (text : String) : Option SourceSetId :=
  match Text.splitOnce '/' text with
  | some (scope, name) => if scope.isEmpty || name.isEmpty then none else some ⟨scope, name⟩
  | none => none

/-- The complaint about a text that spells no identifier. -/
def malformedMessage (text : String) : String :=
  "source set id `" ++ text ++ "` must look like `scope/name`"

end SourceSetId

/-- The source sets that something applies to. -/
abbrev SourceSets := OrderedSet SourceSetId

/-- The platform that a source set is analysed for. -/
inductive Platform where
  | common
  | jvm
  | js
  | wasm
  | native
deriving DecidableEq, Repr, Inhabited

/-- The written name of a platform. -/
def Platform.key : Platform → String
  | .common => "common"
  | .jvm => "jvm"
  | .js => "js"
  | .wasm => "wasm"
  | .native => "native"

/-- A source set with the details that readers see. -/
structure SourceSet where
  id : SourceSetId
  /-- The name shown in platform hints. -/
  displayName : String
  platform : Platform
deriving DecidableEq, Repr, Inhabited

end DocPages
