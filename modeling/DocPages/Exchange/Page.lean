import DocPages.Exchange.Content
import DocPages.Page.Tree

/-!
# The exchange form of pages

A page as an object with its child pages. A page that is read shows no declarations, because their
values do not belong to its form: written pages only sum them up.
-/

namespace DocPages

namespace PageKind

def all : List PageKind := [.module, .package, .classlike, .member, .allTypes]

/-- The key of a kind. -/
def key : PageKind → String
  | .module => "Module"
  | .package => "Package"
  | .classlike => "Classlike"
  | .member => "Member"
  | .allTypes => "AllTypes"

/-- The kind with a key. -/
def ofKey? (key : String) : Option PageKind := all.find? fun kind => kind.key == key

end PageKind

namespace Page

/-- The page that a value of at most the given depth states. -/
def ofJsonWithin : Nat → Decoder Page
  | 0, _, _ => none
  | bound + 1, kept, json => do
    let record ← Record.ofJson? kept json
    return {
      kind := ← record.required "kind" (.named PageKind.ofKey?)
      name := ← record.required "name" .string
      content := ← record.required "content" Content.Node.ofJson
      dris := ← record.fallingBack "dri" {} (.set Dri.ofJson)
      declarations := []
      children := ← record.fallingBack "children" [] (.list (ofJsonWithin bound)) }

/-- The page that a value states. -/
def ofJson : Decoder Page :=
  fun kept json => ofJsonWithin json.depth kept json

mutual

/-- The value of a page, with or without the content of it and the pages below it. -/
def toJson (withContent : Bool) : Page → Json
  | ⟨kind, name, content, dris, declarations, children⟩ =>
    .ofMembers <|
      [("kind", .ofString kind.label), ("name", .ofString name), ("dri", dris.displayDris),
        ("documentables", Declaration.summaries declarations),
        ("children", .array (toJsonList withContent children))] ++
        (if withContent then [("content", content.toJson)] else [])

/-- The values of a list of pages. -/
def toJsonList (withContent : Bool) : List Page → List Json
  | [] => []
  | head :: tail => toJson withContent head :: toJsonList withContent tail

end

end Page

end DocPages
