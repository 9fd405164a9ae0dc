import DocPages.Content.Traversal
import DocPages.Declaration.View

/-!
# Page trees

A page shows the declarations it is for, and its child pages show those below them.
-/

namespace DocPages

/-- What a page is for. -/
inductive PageKind where
  | module
  | package
  | classlike
  | member
  | allTypes
deriving DecidableEq, Repr, Inhabited

namespace PageKind

/-- The kind of a page in words. -/
def label : PageKind → String
  | .module => "module"
  | .package => "package"
  | .classlike => "classlike"
  | .member => "member"
  | .allTypes => "all types"

end PageKind

/-- A page with the pages below it. -/
structure Page where
  kind : PageKind
  name : String
  content : Content.Node
  /-- The identities of the declarations that the page is for. -/
  dris : OrderedSet Dri
  /-- The declarations that the page is for, one for each variant. -/
  declarations : List Declaration
  children : List Page

namespace Page

instance : Inhabited Page := ⟨⟨.module, "", default, {}, [], []⟩⟩

mutual

/-- The page and all pages below it with their depths, a page before its children. -/
def walkFrom (depth : Nat) : Page → List (Nat × Page)
  | ⟨kind, name, content, dris, declarations, children⟩ =>
    (depth, ⟨kind, name, content, dris, declarations, children⟩) ::
      walkListFrom (depth + 1) children

/-- The walks through the pages of a list, joined. -/
def walkListFrom (depth : Nat) : List Page → List (Nat × Page)
  | [] => []
  | head :: tail => walkFrom depth head ++ walkListFrom depth tail

end

/-- The page and all pages below it with their depths below the page. -/
def walk (page : Page) : List (Nat × Page) := walkFrom 0 page

/-- The number of pages in the tree. -/
def count (page : Page) : Nat := page.walk.length

/-- The first child of a name. -/
def child? (page : Page) (name : String) : Option Page :=
  page.children.find? fun child => child.name == name

/-- The page at the end of a path of names. -/
def find? (page : Page) (path : List String) : Option Page :=
  path.foldlM child? page

mutual

/-- The tree with every page changed according to its depth. The change applies to what a page
holds itself: its children are those that it had, changed in turn. -/
def mapFrom (change : Nat → Page → Page) (depth : Nat) : Page → Page
  | ⟨kind, name, content, dris, declarations, children⟩ =>
    { change depth ⟨kind, name, content, dris, declarations, children⟩ with
      children := mapListFrom change (depth + 1) children }

/-- The trees of a list with every page changed. -/
def mapListFrom (change : Nat → Page → Page) (depth : Nat) : List Page → List Page
  | [] => []
  | head :: tail => mapFrom change depth head :: mapListFrom change depth tail

end

/-- The tree with the content of every page changed. -/
def mapContent (change : Content.Node → Content.Node) (page : Page) : Page :=
  page.mapFrom (fun _ page => { page with content := change page.content }) 0

mutual

/-- The tree without the pages below the selected ones. -/
def prune (selects : Page → Bool) : Page → Page
  | ⟨kind, name, content, dris, declarations, children⟩ =>
    let isSelected := selects ⟨kind, name, content, dris, declarations, children⟩
    ⟨kind, name, content, dris, declarations,
      if isSelected then [] else pruneList selects children⟩

/-- The trees of a list without the pages below the selected ones. -/
def pruneList (selects : Page → Bool) : List Page → List Page
  | [] => []
  | head :: tail => prune selects head :: pruneList selects tail

end

end Page

end DocPages
