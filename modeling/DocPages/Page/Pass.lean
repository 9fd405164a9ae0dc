import DocPages.Page.Tree
import DocPages.Problem
import DocPages.Text.Substitution

/-!
# Passes over page trees

What is done to a finished page tree: brief comments become blocks, a placeholder for the path to
the root page is replaced, and uncovered source sets are reported. The tree keeps its shape.
-/

namespace DocPages

open Content

/-- A pass over a page tree. -/
inductive Pass where
  /-- Brief comments are shown as blocks. -/
  | briefBlocks
  /-- A pattern in texts and addresses becomes the path to the root page, which has a path of its
  own on the root page itself. -/
  | pathToRoot (pattern rootPath : String)
  /-- Uncovered source sets are reported. -/
  | coverageCheck
deriving DecidableEq, Repr, Inhabited

namespace Pass

/-- The name of a pass. -/
def name : Pass → String
  | .briefBlocks => "brief-comment-preprocessor"
  | .pathToRoot .. => "path-to-root-substitution"
  | .coverageCheck => "source-set-coverage-check"

/-- The default pattern of the path to the root page. -/
def rootPattern : String := "###"

/-- The default path on the root page. -/
def rootPath : String := "."

/-- The passes that every page tree goes through. -/
def standard : List Pass := [.briefBlocks, .pathToRoot rootPattern rootPath, .coverageCheck]

/-- A brief comment as a block. -/
def blockBrief (node : Node) : Node :=
  if node.kind = .briefComment then node.addStyle .block else node

/-- The path from a page at a depth to the root page. -/
def pathFrom (rootPath : String) : Nat → String
  | 0 => rootPath
  | depth + 1 => String.intercalate "/" (List.replicate (depth + 1) "..")

/-- A node with the pattern in its own text or address replaced by a path. -/
def substitutePath (pattern path : String) : Node → Node
  | .text scope body => .text scope (Text.replace pattern path body)
  | .link scope (.address url) children =>
    .link scope (.address (Text.replace pattern path url)) children
  | node => node

/-- The tree after a pass. -/
def apply : Pass → Page → Page
  | .briefBlocks, page => page.mapContent (Node.mapShape .group blockBrief)
  | .pathToRoot pattern rootPath, page =>
    page.mapFrom
      (fun depth page =>
        { page with
          content := page.content.mapAll (substitutePath pattern (pathFrom rootPath depth)) })
      0
  | .coverageCheck, page => page

/-- The problems of a page tree that a pass reports. -/
def problems : Pass → Page → List Problem
  | .coverageCheck, page =>
    page.walk.flatMap fun (_, page) =>
      page.content.coverageGaps.map fun gap => .uncoveredSourceSets page.name gap
  | _, _ => []

/-- The tree after a sequence of passes, with the problems they report. -/
def applyAll (passes : List Pass) (page : Page) : Page × List Problem :=
  passes.foldl
    (fun (page, reported) pass => (pass.apply page, reported ++ pass.problems page))
    (page, [])

end Pass

end DocPages
