import DocPages.Json.Precision

/-!
# JSON values

JSON values as their text spells them: an object keeps all of its members in order, repeated keys
included, and a number keeps its digits. What a repeated key means is decided by whoever reads the
object.

A string literal can spell a surrogate without its partner. Such a text has no characters; it is
kept as an absent text, because a reader that skips a value accepts it.
-/

namespace DocPages

/-- A number as it is written. -/
structure NumberLiteral where
  negative : Bool := false
  /-- The digits before the point. -/
  whole : String
  /-- The digits after the point. -/
  fraction : Option String := none
  /-- The exponent: its sign, and its digits. -/
  exponent : Option (Bool × String) := none
deriving DecidableEq, Repr, Inhabited

namespace NumberLiteral

/-- The literal of a natural number. -/
def ofNat (value : Nat) : NumberLiteral := { whole := toString value }

/-- The value of a digit sequence. -/
def digitsValue (digits : String) : Nat :=
  digits.toList.foldl (fun value digit => 10 * value + (digit.toNat - '0'.toNat)) 0

/-- The natural number that a literal without sign, fraction and exponent denotes. -/
def toNat? (literal : NumberLiteral) : Option Nat :=
  if literal.negative || literal.fraction.isSome || literal.exponent.isSome then none
  else some (digitsValue literal.whole)

/-- The value of a digit sequence that continues a number, and the number of digits left out. From
the first digit that would need more than 64 bits on all are left out. -/
def leadingDigits (value : Nat) : List Char → Nat × Nat
  | [] => (value, 0)
  | digit :: rest =>
    let extended := 10 * value + (digit.toNat - '0'.toNat)
    if extended < Nat.pow 2 64 then leadingDigits extended rest else (value, rest.length + 1)

/-- The exponent that a literal states. -/
def statedExponent (literal : NumberLiteral) : Int :=
  match literal.exponent with
  | none => 0
  | some (true, digits) => -(digitsValue digits : Int)
  | some (false, digits) => digitsValue digits

/-- The significand and the decimal exponent of a literal. The significand consists of the leading
digits of both parts that fit in 64 bits. -/
def scientific (literal : NumberLiteral) : Nat × Int :=
  let fraction := (literal.fraction.getD "").toList
  let (integral, omitted) := leadingDigits 0 literal.whole.toList
  let (significand, dropped) := leadingDigits integral fraction
  (significand, literal.statedExponent + omitted - (fraction.length - dropped : Nat))

/-- The magnitude, computed in double precision, is finite: the significand times the power of ten,
where a negative exponent divides. -/
def isInRange (literal : NumberLiteral) : Bool :=
  let (significand, exponent) := literal.scientific
  significand == 0 || exponent < 0 || Precision.isFiniteScaled significand exponent.toNat

end NumberLiteral

/-- A JSON value as it is written. -/
inductive Json where
  | null
  | bool (value : Bool)
  | number (literal : NumberLiteral)
  /-- A string, absent if it spells an unpaired surrogate. -/
  | string (text : Option String)
  | array (items : List Json)
  /-- An object with its members in written order. -/
  | object (members : List (Option String × Json))
deriving Inhabited

namespace Json

/-- The string value of a text. -/
def ofString (text : String) : Json := .string (some text)

/-- The number value of a natural number. -/
def ofNat (value : Nat) : Json := .number (.ofNat value)

/-- An object with the given members. -/
def ofMembers (members : List (String × Json)) : Json :=
  .object (members.map fun (key, value) => (some key, value))

/-- The value itself, or null in its absence. -/
def ofOption : Option Json → Json
  | some value => value
  | none => .null

mutual

/-- Every text has characters and every number lies in the range of double precision, as it must
in a value that is kept before its type is known. -/
def isSound : Json → Bool
  | .null | .bool _ => true
  | .number literal => literal.isInRange
  | .string text => text.isSome
  | .array items => areSound items
  | .object members => areSoundMembers members

/-- The values of a list are sound. -/
def areSound : List Json → Bool
  | [] => true
  | head :: tail => head.isSound && areSound tail

/-- The keys and values of a list are sound. -/
def areSoundMembers : List (Option String × Json) → Bool
  | [] => true
  | (key, value) :: rest => key.isSome && value.isSound && areSoundMembers rest

end

end Json

end DocPages
