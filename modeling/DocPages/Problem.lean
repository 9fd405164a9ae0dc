import DocPages.Content.Coverage

/-!
# Problems

What can go wrong. A problem is reported while pages are built, and the build goes on. A failure
ends the run; its code names the cause for tools and its message tells readers about it.
-/

namespace DocPages

/-- How grave a problem is. -/
inductive Severity where
  | error
  | warning
deriving DecidableEq, Repr, Inhabited

/-- A problem that does not stop the build. -/
inductive Problem where
  /-- A type without a name. -/
  | unresolvedType (type : TypeUse)
  /-- A function type whose arguments end with the receiver. -/
  | missingReturnType (type : TypeUse)
  /-- Declarations with several identities on one page. -/
  | differingDris (subject : String) (first : Dri) (count : Nat)
  /-- Content that claims source sets which no child supports. -/
  | uncoveredSourceSets (page : String) (gap : Content.CoverageGap)
deriving DecidableEq, Inhabited

namespace Problem

/-- The severity of a problem. -/
def severity : Problem → Severity
  | .uncoveredSourceSets .. => .warning
  | _ => .error

/-- The text of a problem, given how a type is described. -/
def message (describe : TypeUse → String) : Problem → String
  | .unresolvedType type => "type " ++ describe type ++ " cannot be resolved"
  | .missingReturnType type => "function type " ++ describe type ++ " has no return type"
  | .differingDris subject first count =>
    subject ++ " dri should have the same one " ++ first.display ++
      " inside the one page, found " ++ toString count
  | .uncoveredSourceSets page gap =>
    gap.shape.name ++ " node of kind " ++ gap.kind.name ++ " on page `" ++ page ++
      "` claims source sets [" ++
      String.intercalate ", " (gap.uncovered.toList.map SourceSetId.display) ++
      "] that no child supports"

end Problem

/-- The counts of the problems of a run. -/
structure Report where
  errors : Nat := 0
  warnings : Nat := 0
deriving DecidableEq, Repr, Inhabited

namespace Report

/-- The counts of a list of problems. -/
def ofProblems (problems : List Problem) : Report where
  errors := problems.countP (·.severity == .error)
  warnings := problems.countP (·.severity == .warning)

/-- No problem was reported. -/
def isClean (report : Report) : Bool := report.errors == 0 && report.warnings == 0

def hasErrors (report : Report) : Bool := 0 < report.errors

end Report

/-- The cause that ends a run. -/
inductive Failure where
  /-- A file cannot be read. -/
  | unreadableFile
  /-- A settings file does not hold settings. -/
  | malformedSettings
  /-- The text from an origin is no module. -/
  | malformedModule (origin : String)
  /-- A list of extensions holds a declaration that is no function or property. -/
  | unexpectedExtension (kindName : String) (dri : Dri)
  /-- Two variants have an extra property that cannot be united. -/
  | extrasConflict (key : ExtraKey)
  /-- Errors were reported in a run that must not report any. -/
  | reportedErrors (moduleName : String) (count : Nat)
deriving DecidableEq, Inhabited

namespace Failure

/-- The code of a failure. -/
def code : Failure → String
  | .unreadableFile => "pagetree::io_error"
  | .malformedSettings => "pagetree::config_parse"
  | .malformedModule _ => "pagetree::input_parse"
  | .unexpectedExtension .. => "pagetree::unexpected_documentable"
  | .extrasConflict _ => "pagetree::extra_merge_conflict"
  | .reportedErrors .. => "pagetree::generation_failed"

/-- The text of a failure. -/
def message : Failure → String
  | .unreadableFile => "cannot read the file"
  | .malformedSettings => "failed to parse config file"
  | .malformedModule origin => "failed to parse declaration model `" ++ origin ++ "`"
  | .unexpectedExtension kindName dri =>
    "expected only properties or functions, found " ++ kindName ++ " `" ++ dri.display ++ "`"
  | .extrasConflict key =>
    "cannot merge extra `" ++ key.name ++ "`: both sides define it and the key forbids merging"
  | .reportedErrors moduleName count =>
    "page generation failed for `" ++ moduleName ++ "`: " ++ toString count ++ " error(s) logged"

end Failure

end DocPages
