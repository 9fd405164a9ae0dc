import DocPages.Page.Tree

/-!
# Outlines

The page hierarchy with one line for every page, a page before those below it.
-/

namespace DocPages

namespace Page

/-- The indentation of the lines at a depth. -/
def outlineIndent (depth : Nat) : String :=
  String.join (List.replicate depth "  ")

/-- The line of a page: its name and its kind, indented by its depth. -/
def outlineLine (depth : Nat) (page : Page) : String :=
  outlineIndent depth ++ page.name ++ " (" ++ page.kind.label ++ ")\n"

/-- The outline of a page tree. -/
def outline (page : Page) : String :=
  String.join (page.walk.map fun (depth, page) => page.outlineLine depth)

end Page

end DocPages
