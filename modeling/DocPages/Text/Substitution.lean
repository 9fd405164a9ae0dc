/-!
# Substitution in texts

Every left-to-right, non-overlapping occurrence of a pattern is replaced. The empty pattern occurs
before every character and at the end.
-/

namespace DocPages

namespace Text

/-- Replacement of a nonempty pattern, after the given number of characters is dropped. -/
def replaceCharacters (pattern replacement : List Char) : Nat → List Char → List Char
  | _, [] => []
  | dropped + 1, _ :: rest => replaceCharacters pattern replacement dropped rest
  | 0, character :: rest =>
    if pattern.isPrefixOf (character :: rest) then
      replacement ++ replaceCharacters pattern replacement (pattern.length - 1) rest
    else
      character :: replaceCharacters pattern replacement 0 rest

/-- A text with every occurrence of the pattern replaced. -/
def replace (pattern replacement text : String) : String :=
  if pattern.isEmpty then
    String.ofList
      (replacement.toList ++ text.toList.flatMap fun character => character :: replacement.toList)
  else
    String.ofList (replaceCharacters pattern.toList replacement.toList 0 text.toList)

end Text

end DocPages
