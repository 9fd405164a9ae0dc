import DocPages.Json.Value
import DocPages.Text.Hexadecimal

/-!
# Reading JSON

The text is cut into tokens, which a machine assembles from left to right. The machine holds the
open containers in a stack and either expects a value or has just completed one.
-/

namespace DocPages

namespace Json

/-- A lexical element of a JSON text. -/
inductive Token where
  | openArray
  | closeArray
  | openObject
  | closeObject
  | comma
  | colon
  | string (text : Option String)
  /-- A value other than a string or a container. -/
  | scalar (value : Json)

/-- A character that may stand between tokens. -/
def isSpace (character : Char) : Bool :=
  character == ' ' || character == '\t' || character == '\n' || character == '\r'

/-- The character that a single-letter escape stands for. -/
def escapedCharacter? : Char → Option Char
  | '"' => some '"'
  | '\\' => some '\\'
  | '/' => some '/'
  | 'b' => some '\x08'
  | 'f' => some '\x0C'
  | 'n' => some '\n'
  | 'r' => some '\r'
  | 't' => some '\t'
  | _ => none

/-- The part of a string literal that has been read: its characters from the last to the first, or
nothing after an unpaired surrogate, and a high surrogate that waits for its partner. -/
structure StringProgress where
  characters : Option (List Char) := some []
  pending : Option Nat := none

namespace StringProgress

/-- The progress with a pending surrogate given up as unpaired. -/
def settle (progress : StringProgress) : StringProgress :=
  if progress.pending.isSome then ⟨none, none⟩ else progress

/-- The progress after one more character. -/
def push (progress : StringProgress) (character : Char) : StringProgress :=
  let settled := progress.settle
  { settled with characters := settled.characters.map (character :: ·) }

/-- The progress after an escaped code unit, which may be half of a surrogate pair. -/
def pushUnit (progress : StringProgress) (unit : Nat) : StringProgress :=
  if 0xDC00 ≤ unit ∧ unit ≤ 0xDFFF then
    match progress.pending with
    | some high =>
      let code := 0x10000 + (high - 0xD800) * 0x400 + (unit - 0xDC00)
      { characters := progress.characters.map (Char.ofNat code :: ·) }
    | none => ⟨none, none⟩
  else if 0xD800 ≤ unit ∧ unit ≤ 0xDBFF then
    { progress.settle with pending := some unit }
  else
    progress.push (Char.ofNat unit)

/-- The text of a completed literal. -/
def text (progress : StringProgress) : Option String :=
  progress.settle.characters.map fun characters => String.ofList characters.reverse

end StringProgress

/-- The text of a string literal after its opening quote, and the characters after its end. -/
def stringLiteral? (progress : StringProgress) : List Char → Option (Option String × List Char)
  | [] => none
  | '"' :: rest => some (progress.text, rest)
  | '\\' :: 'u' :: a :: b :: c :: d :: rest => do
    let unit ← Text.hexValue? [a, b, c, d]
    stringLiteral? (progress.pushUnit unit) rest
  | '\\' :: letter :: rest => do
    let character ← escapedCharacter? letter
    stringLiteral? (progress.push character) rest
  | character :: rest =>
    if character.toNat < 0x20 then none else stringLiteral? (progress.push character) rest

/-- The digits at the start of a character sequence, of which there is at least one. -/
def digits? (characters : List Char) : Option (String × List Char) :=
  match characters.span Char.isDigit with
  | ([], _) => none
  | (digits, rest) => some (String.ofList digits, rest)

/-- The digits before the point: a zero stands alone. -/
def wholeDigits? : List Char → Option (String × List Char)
  | '0' :: rest => if rest.head?.any Char.isDigit then none else some ("0", rest)
  | characters => digits? characters

/-- The fraction at the start of a character sequence, if there is one. -/
def fraction? : List Char → Option (Option String × List Char)
  | '.' :: rest => (digits? rest).map fun (digits, rest) => (some digits, rest)
  | characters => some (none, characters)

/-- The digits of an exponent after its letter. -/
def exponentDigits? : List Char → Option ((Bool × String) × List Char)
  | '+' :: rest => (digits? rest).map fun (digits, rest) => ((false, digits), rest)
  | '-' :: rest => (digits? rest).map fun (digits, rest) => ((true, digits), rest)
  | characters => (digits? characters).map fun (digits, rest) => ((false, digits), rest)

/-- The exponent at the start of a character sequence, if there is one. -/
def exponent? : List Char → Option (Option (Bool × String) × List Char)
  | 'e' :: rest | 'E' :: rest =>
    (exponentDigits? rest).map fun (exponent, rest) => (some exponent, rest)
  | characters => some (none, characters)

/-- The number at the start of a character sequence after its sign. -/
def unsigned? (negative : Bool) (characters : List Char) : Option (NumberLiteral × List Char) := do
  let (whole, rest) ← wholeDigits? characters
  let (fraction, rest) ← fraction? rest
  let (exponent, rest) ← exponent? rest
  return ({ negative, whole, fraction, exponent }, rest)

/-- The token at the start of a character sequence. -/
def token? : List Char → Option (Token × List Char)
  | '[' :: rest => some (.openArray, rest)
  | ']' :: rest => some (.closeArray, rest)
  | '{' :: rest => some (.openObject, rest)
  | '}' :: rest => some (.closeObject, rest)
  | ',' :: rest => some (.comma, rest)
  | ':' :: rest => some (.colon, rest)
  | '"' :: rest => (stringLiteral? {} rest).map fun (text, rest) => (.string text, rest)
  | 'n' :: 'u' :: 'l' :: 'l' :: rest => some (.scalar .null, rest)
  | 't' :: 'r' :: 'u' :: 'e' :: rest => some (.scalar (.bool true), rest)
  | 'f' :: 'a' :: 'l' :: 's' :: 'e' :: rest => some (.scalar (.bool false), rest)
  | '-' :: rest =>
    (unsigned? true rest).map fun (literal, rest) => (.scalar (.number literal), rest)
  | characters =>
    (unsigned? false characters).map fun (literal, rest) => (.scalar (.number literal), rest)

/-- The tokens of a character sequence that has at most `bound` of them. -/
def tokensWithin : (bound : Nat) → List Char → Option (List Token)
  | bound, characters =>
    match characters.dropWhile isSpace, bound with
    | [], _ => some []
    | _ :: _, 0 => none
    | first :: rest, bound + 1 => do
      let (token, rest) ← token? (first :: rest)
      return token :: (← tokensWithin bound rest)

/-- The tokens of a text. Each takes at least one character. -/
def tokens? (text : String) : Option (List Token) :=
  tokensWithin text.length text.toList

/-- A container that is still open, its completed parts from the last to the first. -/
inductive Frame where
  | array (items : List Json)
  /-- An object that awaits the value of a key. -/
  | object (members : List (Option String × Json)) (key : Option String)

mutual

/-- The value of the tokens, of which the next ones start a value. -/
def assemble? (stack : List Frame) : List Token → Option Json
  | .openArray :: .closeArray :: rest => complete? stack (.array []) rest
  | .openArray :: rest => assemble? (.array [] :: stack) rest
  | .openObject :: .closeObject :: rest => complete? stack (.object []) rest
  | .openObject :: .string key :: .colon :: rest => assemble? (.object [] key :: stack) rest
  | .string text :: rest => complete? stack (.string text) rest
  | .scalar value :: rest => complete? stack value rest
  | _ => none

/-- The value of the tokens that follow a completed value. -/
def complete? (stack : List Frame) (value : Json) : List Token → Option Json
  | [] => if stack.isEmpty then some value else none
  | .comma :: .string next :: .colon :: rest =>
    match stack with
    | .object members key :: stack =>
      assemble? (.object ((key, value) :: members) next :: stack) rest
    | _ => none
  | .comma :: rest =>
    match stack with
    | .array items :: stack => assemble? (.array (value :: items) :: stack) rest
    | _ => none
  | .closeArray :: rest =>
    match stack with
    | .array items :: stack => complete? stack (.array (value :: items).reverse) rest
    | _ => none
  | .closeObject :: rest =>
    match stack with
    | .object members key :: stack =>
      complete? stack (.object ((key, value) :: members).reverse) rest
    | _ => none
  | _ => none

end

/-- The value that a text spells. -/
def parse? (text : String) : Option Json :=
  (tokens? text).bind (assemble? [])

end Json

end DocPages
