import DocPages.Settings.Basic
import DocPages.Text.Hexadecimal
import DocPages.Text.Splitting

/-!
# Settings files

A settings file is a TOML document that gives each setting at most one truth value. All other keys,
tables and values are refused, so that a document is a sequence of lines which are blank, a comment,
or a key with its value. Keys may be quoted.
-/

namespace DocPages

namespace Settings

namespace Toml

/-- A space or a tab. -/
def isSpace (character : Char) : Bool :=
  character == ' ' || character == '\t'

/-- A character of a comment or a quoted key: any but the control characters, and a tab. -/
def isPlain (character : Char) : Bool :=
  character == '\t' || (0x20 ≤ character.toNat && character.toNat != 0x7F)

/-- A character of a key without quotes. -/
def isBare (character : Char) : Bool :=
  character.isAlphanum || character == '_' || character == '-'

/-- The characters after leading spaces. -/
def skipSpaces (characters : List Char) : List Char :=
  characters.dropWhile isSpace

/-- Nothing follows but spaces and a comment. -/
def isEnd (characters : List Char) : Bool :=
  match skipSpaces characters with
  | [] => true
  | '#' :: comment => comment.all isPlain
  | _ => false

/-- The character with a code of hexadecimal digits. -/
def codedCharacter? (digits : List Char) : Option Char := do
  let code ← Text.hexValue? digits
  if code.isValidChar then some (Char.ofNat code) else none

/-- The character that a letter after a backslash stands for. -/
def escaped? : Char → Option Char
  | 'b' => some '\x08'
  | 't' => some '\t'
  | 'n' => some '\n'
  | 'f' => some '\x0c'
  | 'r' => some '\r'
  | 'e' => some '\x1b'
  | '"' => some '"'
  | '\\' => some '\\'
  | _ => none

/-- The characters up to a closing quotation mark with escapes resolved, and what follows. -/
def basic? : List Char → Option (List Char × List Char)
  | [] => none
  | '"' :: rest => some ([], rest)
  | '\\' :: 'x' :: d₁ :: d₂ :: rest => do
    let character ← codedCharacter? [d₁, d₂]
    let (characters, rest) ← basic? rest
    return (character :: characters, rest)
  | '\\' :: 'u' :: d₁ :: d₂ :: d₃ :: d₄ :: rest => do
    let character ← codedCharacter? [d₁, d₂, d₃, d₄]
    let (characters, rest) ← basic? rest
    return (character :: characters, rest)
  | '\\' :: 'U' :: d₁ :: d₂ :: d₃ :: d₄ :: d₅ :: d₆ :: d₇ :: d₈ :: rest => do
    let character ← codedCharacter? [d₁, d₂, d₃, d₄, d₅, d₆, d₇, d₈]
    let (characters, rest) ← basic? rest
    return (character :: characters, rest)
  | '\\' :: letter :: rest => do
    let character ← escaped? letter
    let (characters, rest) ← basic? rest
    return (character :: characters, rest)
  | character :: rest => do
    if isPlain character then
      let (characters, rest) ← basic? rest
      return (character :: characters, rest)
    else none

/-- The characters up to a closing apostrophe, and what follows. -/
def literal? : List Char → Option (List Char × List Char)
  | [] => none
  | '\x27' :: rest => some ([], rest)
  | character :: rest => do
    if isPlain character then
      let (characters, rest) ← literal? rest
      return (character :: characters, rest)
    else none

/-- The key at the start of a line, and what follows. -/
def key? : List Char → Option (List Char × List Char)
  | '"' :: rest => basic? rest
  | '\x27' :: rest => literal? rest
  | characters =>
    match characters.takeWhile isBare with
    | [] => none
    | key => some (key, characters.dropWhile isBare)

/-- The truth value that a line ends with. -/
def value? : List Char → Option Bool
  | 't' :: 'r' :: 'u' :: 'e' :: rest => if isEnd rest then some true else none
  | 'f' :: 'a' :: 'l' :: 's' :: 'e' :: rest => if isEnd rest then some false else none
  | _ => none

/-- The key and the value of a line, if it has them; a line of another form is refused. -/
def entry? (line : List Char) : Option (Option (String × Bool)) :=
  if isEnd line then some none
  else do
    let (key, rest) ← key? (skipSpaces line)
    match skipSpaces rest with
    | '=' :: rest => return some (String.ofList key, ← value? (skipSpaces rest))
    | _ => none

/-- The keys and values of a document, which may start with a byte order mark. -/
def entries? (characters : List Char) : Option (List (String × Bool)) :=
  let document :=
    match characters with
    | '\ufeff' :: rest => rest
    | _ => characters
  ((Text.lineCharacters document).mapM entry?).map fun entries => entries.filterMap id

end Toml

/-- The settings that a document states. -/
def ofToml? (document : String) : Option Settings :=
  (Toml.entries? document.toList).bind ofEntries?

end Settings

end DocPages
