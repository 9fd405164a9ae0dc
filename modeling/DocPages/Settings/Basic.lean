/-!
# Settings

The settings that change the shape of a page tree. All of them are off by default.
-/

namespace DocPages

/-- The settings of a run. -/
structure Settings where
  /-- Sibling declarations with one identity share a page instead of being renamed. -/
  mergeVariants : Bool := false
  /-- Inherited members are listed in sections of their own. -/
  separateInherited : Bool := false
  /-- The module has a page that lists all types. -/
  listAllTypes : Bool := false
deriving DecidableEq, Repr, Inhabited

namespace Settings

/-- The key of the setting to merge variants. -/
def mergeVariantsKey : String := "merge_implicit_expect_actual_declarations"

/-- The key of the setting to separate inherited members. -/
def separateInheritedKey : String := "separate_inherited_members"

/-- The key of the setting to list all types. -/
def listAllTypesKey : String := "display_all_types_page"

/-- The settings that a list of keys with values states. No key may be unknown or repeated. -/
def ofEntries? (entries : List (String × Bool)) : Option Settings :=
  let known := [mergeVariantsKey, separateInheritedKey, listAllTypesKey]
  let keys := entries.map Prod.fst
  if keys.all (· ∈ known) && keys.Nodup then
    let isOn := fun key => (key, true) ∈ entries
    some {
      mergeVariants := isOn mergeVariantsKey
      separateInherited := isOn separateInheritedKey
      listAllTypes := isOn listAllTypesKey }
  else none

end Settings

end DocPages
