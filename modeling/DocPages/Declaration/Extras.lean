import DocPages.Collection.OrderedSet
import DocPages.Content.Kind
import DocPages.Declaration.Identity
import DocPages.Declaration.Modifier
import DocPages.Platform.Dependent

/-!
# Extra properties

Properties that cut across the kinds of declarations and content, each under a key of its own.
When the variants of a declaration are merged, the key decides how two values are united.
-/

namespace DocPages

/-- An application of an annotation class. -/
structure AnnotationUse where
  /-- The annotation class. -/
  dri : Dri
  /-- The arguments by parameter name, in ascending order of the names. -/
  params : List (String × String) := []
deriving DecidableEq, Inhabited

/-- The place that a renderer marks so that links can lead to a row. -/
structure SymbolAnchor where
  name : String
  kind : Content.Kind
deriving DecidableEq, Repr, Inhabited

/-- The key of an extra property. -/
inductive ExtraKey where
  | additionalModifiers
  | annotations
  | callableExtensions
  | clashMarkers
  | clashAwareName
  | inheritedMember
  | symbolAnchor
  | tab
  | volatile
deriving DecidableEq, Repr, Inhabited

namespace ExtraKey

/-- The name of a key in messages. -/
def name : ExtraKey → String
  | .additionalModifiers => "AdditionalModifiers"
  | .annotations => "Annotations"
  | .callableExtensions => "CallableExtensions"
  | .clashMarkers => "ClashingDriIdentifier"
  | .clashAwareName => "DriClashAwareName"
  | .inheritedMember => "InheritedMember"
  | .symbolAnchor => "SymbolAnchorHint"
  | .tab => "TabbedContentTypeExtra"
  | .volatile => "Volatile"

/-- Every key, in ascending order of the names. -/
def all : List ExtraKey :=
  [.additionalModifiers, .annotations, .callableExtensions, .clashMarkers, .clashAwareName,
    .inheritedMember, .symbolAnchor, .tab, .volatile]

/-- The key with a name. -/
def ofName? (name : String) : Option ExtraKey :=
  all.find? fun key => key.name == name

end ExtraKey

/-- The extra properties of a declaration or a piece of content, over the type of declarations. -/
structure Extras (δ : Type) where
  /-- The modifiers beyond the visibility. -/
  additionalModifiers : Option (Dependent (OrderedSet Modifier)) := none
  /-- The applied annotations. -/
  annotations : Option (List AnnotationUse) := none
  /-- The extension functions and properties whose receiver is the class. -/
  callableExtensions : Option (List δ) := none
  /-- The marks that tell declarations with clashing identities apart, each once. -/
  clashMarkers : Option (List String) := none
  /-- The name that tells the declaration apart from those with a clashing identity. -/
  clashAwareName : Option String := none
  /-- The supertype that a member is inherited from, or nothing where it is declared. -/
  inheritedMember : Option (Dependent (Option Dri)) := none
  /-- The anchor of a row. -/
  symbolAnchor : Option SymbolAnchor := none
  /-- The tab of a section. -/
  tab : Option Content.Tab := none
  /-- A mark that is dropped when two variants both carry it. -/
  volatile : Option String := none
deriving DecidableEq

namespace Extras

variable {δ : Type}

/-- No properties. -/
def empty : Extras δ := {}

instance : EmptyCollection (Extras δ) := ⟨empty⟩

instance : Inhabited (Extras δ) := ⟨empty⟩

/-- A property with the key is present. -/
def has (extras : Extras δ) : ExtraKey → Bool
  | .additionalModifiers => extras.additionalModifiers.isSome
  | .annotations => extras.annotations.isSome
  | .callableExtensions => extras.callableExtensions.isSome
  | .clashMarkers => extras.clashMarkers.isSome
  | .clashAwareName => extras.clashAwareName.isSome
  | .inheritedMember => extras.inheritedMember.isSome
  | .symbolAnchor => extras.symbolAnchor.isSome
  | .tab => extras.tab.isSome
  | .volatile => extras.volatile.isSome

/-- The keys of the present properties, in ascending order of their names. -/
def keys (extras : Extras δ) : List ExtraKey :=
  ExtraKey.all.filter extras.has

/-- The properties without the one with the key. -/
def without (extras : Extras δ) : ExtraKey → Extras δ
  | .additionalModifiers => { extras with additionalModifiers := none }
  | .annotations => { extras with annotations := none }
  | .callableExtensions => { extras with callableExtensions := none }
  | .clashMarkers => { extras with clashMarkers := none }
  | .clashAwareName => { extras with clashAwareName := none }
  | .inheritedMember => { extras with inheritedMember := none }
  | .symbolAnchor => { extras with symbolAnchor := none }
  | .tab => { extras with tab := none }
  | .volatile => { extras with volatile := none }

/-- The properties of either side, those of the second where both have one. -/
def plus (left right : Extras δ) : Extras δ where
  additionalModifiers := right.additionalModifiers.or left.additionalModifiers
  annotations := right.annotations.or left.annotations
  callableExtensions := right.callableExtensions.or left.callableExtensions
  clashMarkers := right.clashMarkers.or left.clashMarkers
  clashAwareName := right.clashAwareName.or left.clashAwareName
  inheritedMember := right.inheritedMember.or left.inheritedMember
  symbolAnchor := right.symbolAnchor.or left.symbolAnchor
  tab := right.tab.or left.tab
  volatile := right.volatile.or left.volatile

/-- The marks of both lists, each once. -/
def uniteMarkers (left right : List String) : List String :=
  right.foldl (fun markers marker => if marker ∈ markers then markers else markers ++ [marker]) left

/-- The annotations of both lists, a later one only if its class is new. -/
def uniteAnnotations (left right : List AnnotationUse) : List AnnotationUse :=
  right.foldl
    (fun kept use => if kept.any (·.dri = use.dri) then kept else kept ++ [use])
    left

/-- The value of a property in a merge: a value of one side stays, two are united. -/
def uniteWith {α : Type} (unite : α → α → α) : Option α → Option α → Option α
  | some left, some right => some (unite left right)
  | left, right => left.or right

/-- The properties of two variants of one declaration. Two clash-aware names cannot be united, and
the result is then the key of that conflict. -/
def merge (left right : Extras δ) : Except ExtraKey (Extras δ) :=
  if left.clashAwareName.isSome && right.clashAwareName.isSome then
    .error .clashAwareName
  else
    .ok {
      additionalModifiers :=
        uniteWith (Dependent.mergeWith OrderedSet.union) left.additionalModifiers
          right.additionalModifiers
      annotations := uniteWith uniteAnnotations left.annotations right.annotations
      callableExtensions := uniteWith (· ++ ·) left.callableExtensions right.callableExtensions
      clashMarkers := uniteWith uniteMarkers left.clashMarkers right.clashMarkers
      clashAwareName := left.clashAwareName.or right.clashAwareName
      inheritedMember :=
        uniteWith (Dependent.mergeWith fun _ later => later) left.inheritedMember
          right.inheritedMember
      symbolAnchor := right.symbolAnchor.or left.symbolAnchor
      tab := right.tab.or left.tab
      volatile :=
        if left.volatile.isSome && right.volatile.isSome then none
        else left.volatile.or right.volatile }

end Extras

end DocPages
