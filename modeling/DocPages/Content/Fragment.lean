import DocPages.Collection.Comparison
import DocPages.Content.FromMarkup

/-!
# Content fragments

A fragment is content that is placed in an enclosing scope: given the scope, it makes the nodes that
stand there. Nested fragments start from the enclosing scope and override parts of it. Fragments are
made in the order in which they stand, whatever effects the making has.
-/

namespace DocPages

namespace Content

/-- The parts of a scope that a nested scope replaces. -/
structure Overrides where
  dris : Option (OrderedSet Dri) := none
  sourceSets : Option SourceSets := none
  kind : Option Kind := none
  styles : Option (OrderedSet Style) := none
  extras : Option (Extras Declaration) := none
deriving DecidableEq, Inhabited

/-- The scope with the overridden parts replaced. -/
def Scope.override (scope : Scope) (overrides : Overrides) : Scope where
  dris := overrides.dris.getD scope.dris
  kind := overrides.kind.getD scope.kind
  sourceSets := overrides.sourceSets.getD scope.sourceSets
  styles := overrides.styles.getD scope.styles
  extras := overrides.extras.getD scope.extras

/-- The scope with another role. -/
def Scope.withKind (scope : Scope) (kind : Kind) : Scope :=
  { scope with kind }

/-- Content to be placed in a scope, made with the effects of a monad. -/
abbrev Fragment (m : Type → Type) := Scope → m (List Node)

namespace Fragment

variable {m : Type → Type} [Monad m] {α : Type}

/-- No content. -/
def empty : Fragment m := fun _ => pure []

/-- One fragment after another. -/
def append (first second : Fragment m) : Fragment m := fun scope => do
  return (← first scope) ++ (← second scope)

instance : Append (Fragment m) := ⟨append⟩

/-- The fragments of a list, one after another. -/
def concat : List (Fragment m) → Fragment m
  | [] => empty
  | head :: tail => append head (concat tail)

/-- A fragment for every element of a list. -/
def forEach (elements : List α) (fragment : α → Fragment m) : Fragment m :=
  concat (elements.map fragment)

/-- A fragment for the element, if there is one. -/
def forSome (element : Option α) (fragment : α → Fragment m) : Fragment m :=
  (element.map fragment).getD empty

/-- The fragment, on a condition. -/
def onlyIf (condition : Bool) (fragment : Fragment m) : Fragment m :=
  if condition then fragment else empty

/-- Nodes that are already made. -/
def nodes (made : List Node) : Fragment m := fun _ => pure made

/-- A text of a role. -/
def text (kind : Kind) (body : String) : Fragment m := fun scope =>
  pure [.text (scope.withKind kind) body]

/-- A text of a role with styles of its own. -/
def styledText (kind : Kind) (styles : OrderedSet Style) (body : String) : Fragment m :=
  fun scope => pure [.text { scope with kind, styles } body]

/-- A text of the role of the scope. -/
def plainText (body : String) : Fragment m := fun scope =>
  pure [.text scope body]

def lineBreak : Fragment m := fun scope => pure [.lineBreak scope]

/-- A heading that starts with its title. -/
def headerWith (level : Nat) (title : String) (overrides : Overrides) (body : Fragment m) :
    Fragment m := fun scope => do
  let inner := scope.override overrides
  return [.header inner level (← append (plainText title) body inner)]

/-- A heading of a role that holds only its title. -/
def header (level : Nat) (title : String) (kind : Kind) : Fragment m :=
  headerWith level title { kind := some kind } empty

/-- The title of a page. -/
def cover (title : String) : Fragment m := fun scope =>
  headerWith 1 title { kind := some .cover, styles := some (scope.styles.insert .cover) } empty
    scope

/-- A link around a fragment. -/
def linkTo (target : LinkTarget) (overrides : Overrides) (body : Fragment m) : Fragment m :=
  fun scope => do
    let inner := scope.override overrides
    return [.link inner target (← body inner)]

/-- A link to a declaration with a text of the same role. -/
def link (body : String) (dri : Dri) (kind : Kind) : Fragment m :=
  linkTo (.declaration dri) { kind := some kind } (plainText body)

/-- A link to an address with a text of the same role. -/
def linkAddress (body : String) (url : String) (kind : Kind) : Fragment m :=
  linkTo (.address url) { kind := some kind } (plainText body)

/-- A text of the role of symbols, unless it is empty. -/
def mark (body : String) : Fragment m :=
  onlyIf (!body.isEmpty) (text .symbol body)

/-- A fragment for every element with separators in between. The opening and closing marks are only
written around at least one element. -/
def separated (elements : List α) (opening closing separator : String)
    (fragment : α → Fragment m) : Fragment m :=
  match elements with
  | [] => empty
  | first :: rest =>
    mark opening ++ fragment first ++
      (forEach rest fun element => mark separator ++ fragment element) ++ mark closing

/-- A group around a fragment. -/
def group (overrides : Overrides) (body : Fragment m) : Fragment m := fun scope => do
  let inner := scope.override overrides
  return [.group inner (← body inner)]

/-- The group of a comment. -/
def commentWith (markup : Markup) (overrides : Overrides) : Fragment m := fun scope =>
  let inner := scope.override overrides
  pure [.group inner (ofMarkup inner markup)]

/-- The group of a comment, of the role of comments. -/
def comment (markup : Markup) : Fragment m :=
  commentWith markup { kind := some .comment }

/-- A group that names the source sets it applies to. -/
def platformHinted (overrides : Overrides) (body : Fragment m) : Fragment m := fun scope => do
  let inner := scope.override
    { overrides with kind := overrides.kind.or (some .sourceSetDependentHint) }
  return [.platformHinted inner (.group inner (← body inner))]

/-- A part of a variant: a group with its overrides. -/
abbrev Part (m : Type → Type) := Option (Overrides × Fragment m)

/-- The node of a part in the scope of its variant. -/
def makePart (scope : Scope) : Part m → m (Option Node)
  | none => pure none
  | some (overrides, body) => do
    let inner := scope.override overrides
    return some (.group inner (← body inner))

end Fragment

/-- A variant of a row that is still to be made. -/
structure Variant (m : Type → Type) where
  dris : OrderedSet Dri
  sourceSets : SourceSets
  extras : Extras Declaration
  before : Fragment.Part m := none
  divergent : Fragment.Part m := none
  after : Fragment.Part m := none

/-- A row of a table that is still to be made. -/
abbrev Row (m : Type → Type) := Overrides × Fragment m

/-- What a row says about the thing it lists. -/
structure RowSubject where
  dri : Dri
  sourceSets : SourceSets
  name : Option String
deriving DecidableEq, Inhabited

/-- The settings of a block of rows. -/
structure BlockSettings where
  sourceSets : SourceSets
  extras : Extras Declaration := .empty
  /-- The rows are ordered by name instead of input order. -/
  sorted : Bool := true
  /-- Every row with a name has an anchor. -/
  anchored : Bool := false
deriving DecidableEq, Inhabited

/-- The extra properties of a row of a block. -/
def BlockSettings.rowExtras (settings : BlockSettings) (name : Option String) (kind : Kind) :
    Extras Declaration :=
  match name with
  | some name =>
    if settings.anchored then { settings.extras with symbolAnchor := some { name, kind } }
    else settings.extras
  | none => settings.extras

namespace Fragment

variable {m : Type → Type} [Monad m] {α : Type}

/-- The node of a variant in the scope of its group. -/
def makeVariant (scope : Scope) (variant : Variant m) : m Node := do
  let inner := scope.override
    { dris := some variant.dris, sourceSets := some variant.sourceSets,
      extras := some variant.extras }
  let before ← makePart inner variant.before
  let divergent ← makePart inner variant.divergent
  let after ← makePart inner variant.after
  return .divergentInstance inner before divergent after

/-- The variants of one row. Their group has the source sets of the variants. -/
def divergentGroup (groupId : String) (overrides : Overrides) (hinted : Bool)
    (variants : List (Variant m)) : Fragment m := fun scope => do
  let inner := scope.override overrides
  let instances ← variants.mapM (makeVariant inner)
  let sourceSets := .ofList (instances.flatMap fun entry => entry.sourceSets.toList)
  return [.divergentGroup { inner with sourceSets } groupId hinted instances]

/-- The group of a fragment in an enclosing scope. -/
def makeGroup (scope : Scope) (overrides : Overrides) (body : Fragment m) : m Node := do
  let inner := scope.override overrides
  return .group inner (← body inner)

/-- A table. Its titles are made first, then its caption and its rows. -/
def table (overrides : Overrides) (titles : List (Fragment m)) (caption : Option (Fragment m))
    (rows : List (Row m)) : Fragment m := fun scope => do
  let inner := scope.override overrides
  let titleNodes ← titles.mapM (makeGroup inner {})
  let captionNode ← makePart inner (caption.map ({ styles := some (.singleton .caption) }, ·))
  let rowNodes ← rows.mapM fun (rowOverrides, body) => makeGroup inner rowOverrides body
  return [.table inner captionNode titleNodes rowNodes]

/-- A heading and a table of rows, or nothing if there are no rows. -/
def titledRows (title : String) (level : Nat) (kind : Kind) (settings : BlockSettings)
    (rows : List (Row m)) : Fragment m :=
  onlyIf (!rows.isEmpty) <|
    header level title kind ++
      table
        { kind := some kind, sourceSets := some settings.sourceSets
          extras := some settings.extras }
        [] none rows

/-- A block with a row for every element. -/
def block (title : String) (level : Nat) (kind : Kind) (elements : List α)
    (subject : α → RowSubject) (settings : BlockSettings) (body : α → Fragment m) : Fragment m :=
  let ordered :=
    if settings.sorted then
      sortBy
        (fun left right =>
          compareAbsentLast compareAlphabetically (subject left).name (subject right).name)
        elements
    else elements
  titledRows title level kind settings <| ordered.map fun element =>
    let described := subject element
    ({ dris := some (.singleton described.dri), sourceSets := some described.sourceSets
       kind := some kind, extras := some (settings.rowExtras described.name kind) },
      body element)

/-- A block with a row for every named group of elements. -/
def multiBlock (title : String) (level : Nat) (kind : Kind) (groups : List (String × List α))
    (subject : α → RowSubject) (settings : BlockSettings)
    (body : String → List α → Fragment m) : Fragment m :=
  let ordered :=
    if settings.sorted then
      sortBy (fun left right => compareAlphabetically left.1 right.1) groups
    else groups
  titledRows title level kind settings <| ordered.map fun (name, elements) =>
    let described := elements.map subject
    ({ dris := some (.ofList (described.map RowSubject.dri))
       sourceSets := some (.ofList (described.flatMap fun subject => subject.sourceSets.toList))
       kind := some kind, extras := some (settings.rowExtras (some name) kind) },
      body name elements)

end Fragment

end Content

end DocPages
