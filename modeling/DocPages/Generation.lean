import DocPages.Exchange.Declaration
import DocPages.Json.Reader
import DocPages.Page.Build
import DocPages.Page.Pass

/-!
# Generation

From a module to its finished page tree: the pages are built in a fresh session and go through the
standard passes. The problems of both are reported together.
-/

namespace DocPages

/-- A finished page tree with the problems of its run. -/
structure Generated where
  root : Page
  problems : List Problem
deriving Inhabited

namespace Generated

/-- The counts of the problems. -/
def report (generated : Generated) : Report := .ofProblems generated.problems

end Generated

namespace ModuleDecl

/-- The maker of the pages of a module, with further renderers of custom tags after the standard
one. -/
def pageMaker (settings : Settings) (renderers : List TagRenderer) (decl : ModuleDecl) :
    PageMaker where
  settings
  registry := .ofList decl.sourceSets
  renderers := .sinceKotlin :: renderers

/-- The page tree of a module. -/
def generateWith (settings : Settings) (renderers : List TagRenderer) (decl : ModuleDecl) :
    Except Failure Generated :=
  match ((decl.pageMaker settings renderers).build (.module decl)).run {} with
  | (.error failure, _) => .error failure
  | (.ok page, session) =>
    let (root, reported) := Pass.applyAll Pass.standard page
    .ok { root, problems := session.problems ++ reported }

/-- The page tree of a module with the standard renderers. -/
def generate (settings : Settings) (decl : ModuleDecl) : Except Failure Generated :=
  decl.generateWith settings []

/-- The module that a text from an origin describes. -/
def parse (origin text : String) : Except Failure ModuleDecl :=
  match (Json.parse? text).bind (ofJson false) with
  | some decl => .ok decl
  | none => .error (.malformedModule origin)

end ModuleDecl

end DocPages
