import DocPages.Proofs.Collection.Sorting
import DocPages.Proofs.Signature.Rules

/-!
# Fragments that obey a rule

Every way to compose fragments is a composition of the steps that make its parts, so it obeys every
rule that its parts obey.
-/

namespace DocPages

namespace Content

open Build

/-- Whatever the scope, the rule allows the step that makes the fragment. -/
def Fragment.Obeys (rule : Rule) (fragment : Fragment Build) : Prop :=
  ∀ scope, rule _ (fragment scope)

/-- The parts of the variant obey the rule. -/
structure Variant.Obeys (rule : Rule) (variant : Variant Build) : Prop where
  before : ∀ part ∈ variant.before, Fragment.Obeys rule part.2
  divergent : ∀ part ∈ variant.divergent, Fragment.Obeys rule part.2
  after : ∀ part ∈ variant.after, Fragment.Obeys rule part.2

namespace Fragment

variable {rule : Rule} (composes : rule.Composes) {α : Type}

include composes

/-! ## Sequences -/

theorem obeys_empty : (empty : Fragment Build).Obeys rule := fun _ => composes.pure []

theorem obeys_append {first second : Fragment Build} (firstObeys : first.Obeys rule)
    (secondObeys : second.Obeys rule) : (first ++ second).Obeys rule := fun scope =>
  composes.bind (firstObeys scope) fun nodes =>
    composes.bind (secondObeys scope) fun more => composes.pure (nodes ++ more)

theorem obeys_concat {fragments : List (Fragment Build)}
    (each : ∀ fragment ∈ fragments, fragment.Obeys rule) : (concat fragments).Obeys rule := by
  induction fragments with
  | nil => exact obeys_empty composes
  | cons head tail ih =>
      obtain ⟨headObeys, tailObeys⟩ := List.forall_mem_cons.mp each
      exact obeys_append composes headObeys (ih tailObeys)

theorem obeys_forEach {elements : List α} {fragment : α → Fragment Build}
    (each : ∀ element ∈ elements, (fragment element).Obeys rule) :
    (forEach elements fragment).Obeys rule :=
  obeys_concat composes (List.forall_mem_map.mpr each)

theorem obeys_forSome {element : Option α} {fragment : α → Fragment Build}
    (each : ∀ present ∈ element, (fragment present).Obeys rule) :
    (forSome element fragment).Obeys rule := by
  cases element with
  | none => exact obeys_empty composes
  | some present => exact each present rfl

theorem obeys_onlyIf {condition : Bool} {fragment : Fragment Build} (obeys : fragment.Obeys rule) :
    (onlyIf condition fragment).Obeys rule := by
  cases condition with
  | true => exact obeys
  | false => exact obeys_empty composes

/-! ## Nodes -/

theorem obeys_nodes (made : List Node) : (nodes made : Fragment Build).Obeys rule := fun _ =>
  composes.pure made

theorem obeys_text (kind : Kind) (body : String) : (text kind body : Fragment Build).Obeys rule :=
  fun _ => composes.pure _

theorem obeys_styledText (kind : Kind) (styles : OrderedSet Style) (body : String) :
    (styledText kind styles body : Fragment Build).Obeys rule := fun _ => composes.pure _

theorem obeys_plainText (body : String) : (plainText body : Fragment Build).Obeys rule := fun _ =>
  composes.pure _

theorem obeys_comment (markup : Markup) : (comment markup : Fragment Build).Obeys rule := fun _ =>
  composes.pure _

theorem obeys_group {body : Fragment Build} (overrides : Overrides) (obeys : body.Obeys rule) :
    (group overrides body).Obeys rule := fun _ =>
  composes.bind (obeys _) fun _ => composes.pure _

theorem obeys_headerWith {body : Fragment Build} (level : Nat) (title : String)
    (overrides : Overrides) (obeys : body.Obeys rule) :
    (headerWith level title overrides body).Obeys rule := fun _ =>
  composes.bind (obeys_append composes (obeys_plainText composes title) obeys _) fun _ =>
    composes.pure _

theorem obeys_header (level : Nat) (title : String) (kind : Kind) :
    (header level title kind : Fragment Build).Obeys rule :=
  obeys_headerWith composes level title _ (obeys_empty composes)

theorem obeys_cover (title : String) : (cover title : Fragment Build).Obeys rule := fun scope =>
  obeys_headerWith composes 1 title _ (obeys_empty composes) scope

theorem obeys_linkTo {body : Fragment Build} (target : LinkTarget) (overrides : Overrides)
    (obeys : body.Obeys rule) : (linkTo target overrides body).Obeys rule := fun _ =>
  composes.bind (obeys _) fun _ => composes.pure _

theorem obeys_link (body : String) (dri : Dri) (kind : Kind) :
    (link body dri kind : Fragment Build).Obeys rule :=
  obeys_linkTo composes _ _ (obeys_plainText composes body)

theorem obeys_platformHinted {body : Fragment Build} (overrides : Overrides)
    (obeys : body.Obeys rule) : (platformHinted overrides body).Obeys rule := fun _ =>
  composes.bind (obeys _) fun _ => composes.pure _

/-! ## Variants -/

private theorem allows_makePart {part : Part Build}
    (obeys : ∀ present ∈ part, Fragment.Obeys rule present.2) (scope : Scope) :
    rule _ (makePart scope part) := by
  cases part with
  | none => exact composes.pure none
  | some present => exact composes.bind (obeys present rfl _) fun _ => composes.pure _

private theorem allows_makeVariant {variant : Variant Build} (obeys : variant.Obeys rule)
    (scope : Scope) : rule _ (makeVariant scope variant) :=
  composes.bind (allows_makePart composes obeys.before _) fun _ =>
    composes.bind (allows_makePart composes obeys.divergent _) fun _ =>
      composes.bind (allows_makePart composes obeys.after _) fun _ => composes.pure _

omit composes in
/-- A variant of a distinguishing part and what stands after it. -/
theorem obeys_variant {dris : OrderedSet Dri} {sourceSets : SourceSets}
    {extras : Extras Declaration} {divergent after : Fragment Build}
    (divergentOverrides afterOverrides : Overrides) (divergentObeys : divergent.Obeys rule)
    (afterObeys : after.Obeys rule) :
    Variant.Obeys rule
      { dris, sourceSets, extras, divergent := some (divergentOverrides, divergent)
        after := some (afterOverrides, after) } where
  before := by rintro part ⟨⟩
  divergent := by
    rintro part ⟨⟩
    exact divergentObeys
  after := by
    rintro part ⟨⟩
    exact afterObeys

theorem obeys_divergentGroup {variants : List (Variant Build)} (groupId : String)
    (overrides : Overrides) (hinted : Bool) (each : ∀ variant ∈ variants, variant.Obeys rule) :
    (divergentGroup groupId overrides hinted variants).Obeys rule := fun _ =>
  composes.bind
    (composes.mapM fun variant member => allows_makeVariant composes (each variant member) _)
    fun _ => composes.pure _

/-! ## Tables -/

theorem allows_makeGroup {body : Fragment Build} (obeys : body.Obeys rule) (scope : Scope)
    (overrides : Overrides) : rule _ (makeGroup scope overrides body) :=
  composes.bind (obeys _) fun _ => composes.pure _

theorem obeys_table {titles : List (Fragment Build)} {caption : Option (Fragment Build)}
    {rows : List (Row Build)} (overrides : Overrides)
    (titlesObey : ∀ title ∈ titles, title.Obeys rule)
    (captionObeys : ∀ shown ∈ caption, shown.Obeys rule)
    (rowsObey : ∀ row ∈ rows, row.2.Obeys rule) :
    (table overrides titles caption rows).Obeys rule := by
  intro scope
  refine composes.bind (composes.mapM fun title member =>
    allows_makeGroup composes (titlesObey title member) _ _) fun titleNodes => ?_
  refine composes.bind (allows_makePart composes (fun present isPresent => ?_) _) fun _ => ?_
  · obtain ⟨shown, isCaption, rfl⟩ := Option.map_eq_some_iff.mp isPresent
    exact captionObeys shown isCaption
  · exact composes.bind
      (composes.mapM fun row member => allows_makeGroup composes (rowsObey row member) _ _)
      fun _ => composes.pure _

/-- A table of rows alone. -/
theorem obeys_plainTable {rows : List (Row Build)} (overrides : Overrides)
    (rowsObey : ∀ row ∈ rows, row.2.Obeys rule) : (table overrides [] none rows).Obeys rule :=
  obeys_table composes overrides (fun _ member => (List.not_mem_nil member).elim)
    (fun _ isCaption => nomatch isCaption) rowsObey

theorem obeys_titledRows {rows : List (Row Build)} (title : String) (level : Nat) (kind : Kind)
    (settings : BlockSettings) (rowsObey : ∀ row ∈ rows, row.2.Obeys rule) :
    (titledRows title level kind settings rows).Obeys rule :=
  obeys_onlyIf composes (obeys_append composes (obeys_header composes level title kind)
    (obeys_plainTable composes _ rowsObey))

private theorem obeys_orderedRows {elements : List α} {row : α → Row Build} (title : String)
    (level : Nat) (kind : Kind) (settings : BlockSettings) (compare : α → α → Ordering)
    (each : ∀ element ∈ elements, (row element).2.Obeys rule) :
    (titledRows title level kind settings
      ((if settings.sorted then sortBy compare elements else elements).map row)).Obeys rule := by
  refine obeys_titledRows composes title level kind settings (List.forall_mem_map.mpr ?_)
  split
  · exact fun element member => each element (mem_sortBy.mp member)
  · exact each

theorem obeys_block {elements : List α} {body : α → Fragment Build} (title : String) (level : Nat)
    (kind : Kind) (subject : α → RowSubject) (settings : BlockSettings)
    (each : ∀ element ∈ elements, (body element).Obeys rule) :
    (block title level kind elements subject settings body).Obeys rule :=
  obeys_orderedRows composes title level kind settings _ each

theorem obeys_multiBlock {groups : List (String × List α)} {body : String → List α → Fragment Build}
    (title : String) (level : Nat) (kind : Kind) (subject : α → RowSubject)
    (settings : BlockSettings) (each : ∀ group ∈ groups, (body group.1 group.2).Obeys rule) :
    (multiBlock title level kind groups subject settings body).Obeys rule :=
  obeys_orderedRows composes title level kind settings _ each

end Fragment

end Content

end DocPages
