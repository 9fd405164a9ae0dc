import DocPages.Problem
import DocPages.Settings.FileTree
import DocPages.Settings.Toml

/-!
# Finding settings

Settings are read from a named file, or from the first of the known places at which there is a file.
-/

namespace DocPages

namespace Settings

variable {m : Type → Type} [Monad m]

/-- The known places of settings files, the first of which counts. -/
def knownPlaces : List String :=
  ["pagetree.toml", ".pagetree.toml", ".config/pagetree.toml"]

/-- The first of some paths at which there is a file. -/
def firstFile? (files : Files m) : List String → m (Option String)
  | [] => return none
  | path :: paths => do
    if ← files.isFile path then return some path
    else firstFile? files paths

/-- The settings file that is found without being named. -/
def discover? (files : Files m) : m (Option String) :=
  firstFile? files knownPlaces

/-- The settings that a document states, or the failure of a document that states none. -/
def parse (document : String) : Except Failure Settings :=
  match ofToml? document with
  | some settings => .ok settings
  | none => .error .malformedSettings

/-- The settings in the file at a path. -/
def loadFile (files : Files m) (path : String) : m (Except Failure Settings) := do
  match ← files.readText path with
  | some document => return parse document
  | none => return .error .unreadableFile

/-- The settings in the file that is found, if there is one. -/
def load? (files : Files m) : m (Option (Except Failure Settings)) := do
  match ← discover? files with
  | some path => return some (← loadFile files path)
  | none => return none

end Settings

end DocPages
