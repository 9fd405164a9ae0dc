/-!
# Blank characters

The characters of the Unicode property White_Space, and what removing them from the ends of a text
leaves.
-/

namespace DocPages

namespace Text

/-- A character of the property White_Space. -/
def isBlank (character : Char) : Bool :=
  let code := character.toNat
  (0x09 ≤ code && code ≤ 0x0D) || code == 0x20 || code == 0x85 || code == 0xA0 ||
    code == 0x1680 || (0x2000 ≤ code && code ≤ 0x200A) || code == 0x2028 || code == 0x2029 ||
    code == 0x202F || code == 0x205F || code == 0x3000

/-- A character sequence without its leading blanks. -/
def dropLeadingBlanks (characters : List Char) : List Char :=
  characters.dropWhile isBlank

/-- A character sequence without its trailing blanks. -/
def dropTrailingBlanks (characters : List Char) : List Char :=
  (characters.reverse.dropWhile isBlank).reverse

/-- A text without the blanks at its end. -/
def trimEnd (text : String) : String :=
  String.ofList (dropTrailingBlanks text.toList)

/-- A text without the blanks at either end. -/
def trim (text : String) : String :=
  String.ofList (dropTrailingBlanks (dropLeadingBlanks text.toList))

/-- A text of blanks only, the empty text included. -/
def isAllBlank (text : String) : Bool :=
  text.toList.all isBlank

end Text

end DocPages
