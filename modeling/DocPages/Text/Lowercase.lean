import DocPages.Text.CaseTables

/-!
# Lowercase texts

The full lowercase form of a text. A character is mapped on its own, with two exceptions: the
dotted capital i becomes two characters, and the capital sigma becomes a final sigma at the end of
a word.
-/

namespace DocPages

namespace Text

/-- A code point that lies in one of the ranges. -/
def inRanges (ranges : List (Nat × Nat)) (code : Nat) : Bool :=
  ranges.any fun (first, last) => first ≤ code && code ≤ last

/-- A character with case: uppercase, lowercase or titlecase. -/
def isCased (character : Char) : Bool :=
  inRanges casedRanges character.toNat

/-- A character that is skipped in the search for a neighbouring letter. -/
def isCaseIgnorable (character : Char) : Bool :=
  inRanges caseIgnorableRanges character.toNat

/-- The lowercase form of a character outside the basic Latin block. -/
def lowercaseWide (character : Char) : List Char :=
  let code := character.toNat
  if code = 0x130 then
    ['i', Char.ofNat 0x307]
  else
    match lowercaseRuns.find? fun (first, last, step, _) =>
      first ≤ code && code ≤ last && (code - first) % step == 0 with
    | some (_, _, _, offset) => [Char.ofNat (code + offset).toNat]
    | none => [character]

/-- The lowercase form of a character apart from its neighbours. -/
def lowercaseCharacter (character : Char) : List Char :=
  if character.toNat < 0x80 then [character.toLower] else lowercaseWide character

/-- The first character that is not case-ignorable has case. -/
def startsWithCased (characters : List Char) : Bool :=
  match characters.dropWhile isCaseIgnorable with
  | [] => false
  | character :: _ => isCased character

/-- The lowercase form of a sequence that follows the given characters, the nearest first. -/
def lowercaseAfter (before : List Char) : List Char → List Char
  | [] => []
  | character :: rest =>
    let mapped :=
      if character = 'Σ' then
        if startsWithCased before && !startsWithCased rest then ['ς'] else ['σ']
      else
        lowercaseCharacter character
    mapped ++ lowercaseAfter (character :: before) rest

/-- The lowercase form of a text. -/
def lowercase (text : String) : String :=
  String.ofList (lowercaseAfter [] text.toList)

end Text

end DocPages
