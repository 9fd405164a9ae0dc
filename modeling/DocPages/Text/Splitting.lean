/-!
# Splitting texts

Texts cut at a separator character, at their first separator only, and into lines. A line ends with
a line feed or with a carriage return and a line feed, and the last line may lack its end.
-/

namespace DocPages

namespace Text

/-- The pieces between the separators of a character sequence, of which there is at least one. -/
def splitCharacters (separator : Char) : List Char → List (List Char)
  | [] => [[]]
  | character :: rest =>
    match splitCharacters separator rest with
    | [] => [[character]]
    | piece :: pieces =>
      if character = separator then [] :: piece :: pieces
      else (character :: piece) :: pieces

/-- The pieces between the separators of a text, of which there is at least one. -/
def split (separator : Char) (text : String) : List String :=
  (splitCharacters separator text.toList).map String.ofList

/-- The characters before and after the first separator. -/
def splitCharactersOnce (separator : Char) : List Char → Option (List Char × List Char)
  | [] => none
  | character :: rest =>
    if character = separator then some ([], rest)
    else
      (splitCharactersOnce separator rest).map fun (before, after) => (character :: before, after)

/-- The texts before and after the first separator. -/
def splitOnce (separator : Char) (text : String) : Option (String × String) :=
  (splitCharactersOnce separator text.toList).map fun (before, after) =>
    (String.ofList before, String.ofList after)

/-- The lines of a character sequence without their ends. -/
def lineCharacters : List Char → List (List Char)
  | [] => []
  | '\n' :: rest => [] :: lineCharacters rest
  | '\r' :: '\n' :: rest => [] :: lineCharacters rest
  | character :: rest =>
    match lineCharacters rest with
    | [] => [[character]]
    | line :: lines => (character :: line) :: lines

/-- The lines of a text without their ends. -/
def lines (text : String) : List String :=
  (lineCharacters text.toList).map String.ofList

/-- The characters up to and with the first full stop that a space follows, or all of them. -/
def firstSentenceCharacters : List Char → List Char
  | '.' :: ' ' :: _ => ['.']
  | character :: rest => character :: firstSentenceCharacters rest
  | [] => []

end Text

end DocPages
