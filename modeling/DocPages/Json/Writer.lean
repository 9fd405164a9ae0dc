import DocPages.Json.Value

/-!
# Writing JSON

The text of a value, without spaces and in ASCII. An unpaired surrogate, whose code is not known,
is written as the replacement character.
-/

namespace DocPages

namespace Json

/-- Four hexadecimal digits of a code unit. -/
def unitDigits (unit : Nat) : String :=
  let digits := Nat.toDigits 16 unit
  String.ofList (List.replicate (4 - digits.length) '0' ++ digits)

/-- The escape of a code unit. -/
def unitEscape (unit : Nat) : String :=
  "\\u" ++ unitDigits unit

/-- The form of a character in a string literal. -/
def characterLiteral (character : Char) : String :=
  let code := character.toNat
  if character == '"' then "\\\""
  else if character == '\\' then "\\\\"
  else if 0x20 ≤ code && code < 0x7F then character.toString
  else if code < 0x10000 then unitEscape code
  else unitEscape (0xD800 + (code - 0x10000) / 0x400) ++ unitEscape (0xDC00 + code % 0x400)

/-- The literal of a text. -/
def stringLiteral (text : String) : String :=
  text.toList.foldl (fun written character => written ++ characterLiteral character) "\"" ++ "\""

/-- The literal of a text that may be absent. -/
def textLiteral : Option String → String
  | some text => stringLiteral text
  | none => stringLiteral "\uFFFD"

/-- The written form of a number. -/
def numberText (literal : NumberLiteral) : String :=
  (if literal.negative then "-" else "") ++ literal.whole ++
    (match literal.fraction with
      | some digits => "." ++ digits
      | none => "") ++
    (match literal.exponent with
      | some (negative, digits) => "e" ++ (if negative then "-" else "") ++ digits
      | none => "")

mutual

/-- The text of a value. -/
def render : Json → String
  | .null => "null"
  | .bool value => if value then "true" else "false"
  | .number literal => numberText literal
  | .string text => textLiteral text
  | .array items => "[" ++ String.intercalate "," (renderItems items) ++ "]"
  | .object members => "\x7b" ++ String.intercalate "," (renderMembers members) ++ "\x7d"

/-- The texts of the items of an array. -/
def renderItems : List Json → List String
  | [] => []
  | head :: tail => head.render :: renderItems tail

/-- The texts of the members of an object. -/
def renderMembers : List (Option String × Json) → List String
  | [] => []
  | (key, value) :: rest => (textLiteral key ++ ":" ++ value.render) :: renderMembers rest

end

end Json

end DocPages
