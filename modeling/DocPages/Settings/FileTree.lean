import DocPages.Text.Splitting

/-!
# Files

What a run asks of a file system, and a file system that is a value: a tree of directories and
texts. A path leads from the root of the tree through its components; `.` and empty components stay
where they are, and `..` leads to the directory above.
-/

namespace DocPages

/-- What is asked of a file system. -/
structure Files (m : Type → Type) where
  /-- There is a file, which is no directory, at a path. -/
  isFile : String → m Bool
  /-- The text of the file at a path, unless it cannot be read. -/
  readText : String → m (Option String)

/-- Directories and files by the names that lead to them. A directory has no text. -/
structure FileTree where
  entries : List (List String × Option String)
deriving DecidableEq, Repr, Inhabited

namespace FileTree

/-- The tree of the given paths with their texts. -/
def ofPaths (paths : List (String × Option String)) : FileTree where
  entries := paths.map fun (path, text) => ((Text.split '/' path).filter (! · == ""), text)

/-- The directories: the root, those stated, and those above any entry. -/
def directories (tree : FileTree) : List (List String) :=
  [] :: tree.entries.flatMap fun (place, text) =>
    (List.range place.length).map place.take ++ if text.isNone then [place] else []

/-- The names that lead to where a path leads, if all but its end are directories. -/
def resolve? (tree : FileTree) (path : String) : Option (List String) :=
  if path.startsWith "/" then none
  else
    (Text.split '/' path).foldlM
      (fun place component =>
        if ¬ place ∈ tree.directories then none
        else if component == "" || component == "." then some place
        else if component == ".." then (if place.isEmpty then none else some place.dropLast)
        else some (place ++ [component]))
      []

/-- The text of the file at a path. -/
def text? (tree : FileTree) (path : String) : Option String := do
  let place ← tree.resolve? path
  let entry ← tree.entries.find? fun entry => entry.1 == place
  entry.2

/-- The tree as a file system. -/
def files (tree : FileTree) : Files Id where
  isFile path := (tree.text? path).isSome
  readText path := tree.text? path

end FileTree

end DocPages
