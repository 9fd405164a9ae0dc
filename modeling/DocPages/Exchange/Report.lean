import DocPages.Exchange.Extras
import DocPages.Settings.Basic
import DocPages.Signature.Cache

/-!
# The exchange form of settings and results

Settings are an object of truth values. What a run reports is written as its counts.
-/

namespace DocPages

namespace Settings

/-- The settings that a value states. No key may be unknown or repeated. -/
def ofJson : Decoder Settings := fun kept json => do
  ofEntries? (← Decoder.entries .bool kept json)

/-- The value of settings. -/
def toJson (settings : Settings) : Json :=
  .ofMembers [(mergeVariantsKey, .bool settings.mergeVariants),
    (separateInheritedKey, .bool settings.separateInherited),
    (listAllTypesKey, .bool settings.listAllTypes)]

end Settings

/-- The word for a severity in logs. -/
def Severity.word : Severity → String
  | .error => "error"
  | .warning => "warn"

/-- The severities and messages of problems in ascending order, given how a type is described. -/
def Problem.logged (describe : TypeUse → String) (problems : List Problem) : Json :=
  let lines := problems.map fun problem => (problem.severity.word, problem.message describe)
  let sorted := sortBy (fun left right => (compareOn Prod.fst left right).then
    (compareOn Prod.snd left right)) lines
  .array (sorted.map fun (severity, message) => .ofTexts [severity, message])

/-- The value of the counts of a run. -/
def Report.toJson (report : Report) : Json :=
  .ofMembers [("errors", .ofNat report.errors), ("warnings", .ofNat report.warnings),
    ("clean", .bool report.isClean), ("has_errors", .bool report.hasErrors)]

/-- The value of the counts of a cache. -/
def SignatureCache.toJson (cache : SignatureCache) : Json :=
  .ofMembers [("len", .ofNat cache.size), ("hits", .ofNat cache.hits),
    ("misses", .ofNat cache.misses), ("empty", .bool (cache.size == 0))]

end DocPages
