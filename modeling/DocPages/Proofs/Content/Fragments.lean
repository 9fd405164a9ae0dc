import DocPages.Proofs.Collection.Sorting
import DocPages.Proofs.Content.Links
import DocPages.Proofs.Signature.Steps

/-!
# What fragments show

A fragment shows declarations if the nodes it makes link to them, whatever the scope. Every way to
compose fragments shows what its parts show, and keeps an invariant of the session that they keep.
-/

namespace DocPages

namespace Content

open Build Node

namespace Fragment

variable {invariant : Session → Prop} {α : Type}

/-- In every scope the fragment makes nodes that link to the declarations, and it keeps the
invariant of the session. -/
def Shows (invariant : Session → Prop) (fragment : Fragment Build) (targets : List Dri) : Prop :=
  ∀ scope, Ensures invariant (fragment scope) fun nodes => targets ⊆ linksOf nodes

/-- The fragment keeps the invariant of the session, whatever it shows. -/
abbrev Keeps (invariant : Session → Prop) (fragment : Fragment Build) : Prop :=
  fragment.Shows invariant []

theorem Shows.weaken {fragment : Fragment Build} {targets fewer : List Dri}
    (shows : fragment.Shows invariant targets) (subset : fewer ⊆ targets) :
    fragment.Shows invariant fewer := fun scope =>
  (shows scope).weaken fun _ linked => List.Subset.trans subset linked

theorem Shows.keeps {fragment : Fragment Build} {targets : List Dri}
    (shows : fragment.Shows invariant targets) : fragment.Keeps invariant :=
  shows.weaken (List.nil_subset _)

/-! ## Sequences -/

/-- Two fragments make what they make, one after the other. -/
theorem ensures_append {first second : Fragment Build}
    {scope : Scope} {firstHolds secondHolds holds : List Node → Prop}
    (ensures : Ensures invariant (first scope) firstHolds)
    (moreEnsures : Ensures invariant (second scope) secondHolds)
    (join : ∀ nodes more, firstHolds nodes → secondHolds more → holds (nodes ++ more)) :
    Ensures invariant ((first ++ second) scope) holds :=
  ensures.bind fun nodes isFirst => moreEnsures.bind fun more isSecond =>
    ensures_pure (join nodes more isFirst isSecond)

theorem keeps_empty : (empty : Fragment Build).Keeps invariant := fun _ =>
  ensures_pure (List.nil_subset _)

theorem Shows.append {first second : Fragment Build} {firstTargets secondTargets : List Dri}
    (firstShows : first.Shows invariant firstTargets)
    (secondShows : second.Shows invariant secondTargets) :
    (first ++ second).Shows invariant (firstTargets ++ secondTargets) := fun scope =>
  (firstShows scope).bind fun firstNodes firstLinked =>
    (secondShows scope).bind fun secondNodes secondLinked => ensures_pure <| by
      rw [linksOf_append]
      exact List.append_subset.mpr
        ⟨List.subset_append_of_subset_left _ firstLinked,
          List.subset_append_of_subset_right _ secondLinked⟩

/-- The fragments for the elements of a list show what each of them shows. -/
theorem shows_forEach {elements : List α} {fragment : α → Fragment Build}
    {targets : α → List Dri}
    (each : ∀ element ∈ elements, (fragment element).Shows invariant (targets element)) :
    (forEach elements fragment).Shows invariant (elements.flatMap targets) := by
  induction elements with
  | nil => exact keeps_empty
  | cons head tail ih =>
      have rest := ih fun element member => each element (List.mem_cons_of_mem _ member)
      exact (each head List.mem_cons_self).append rest

theorem keeps_forEach {elements : List α} {fragment : α → Fragment Build}
    (each : ∀ element ∈ elements, (fragment element).Keeps invariant) :
    (forEach elements fragment).Keeps invariant :=
  (shows_forEach each).keeps

theorem shows_forSome {element : Option α} {fragment : α → Fragment Build}
    {targets : α → List Dri}
    (each : ∀ present, element = some present → (fragment present).Shows invariant
      (targets present)) :
    (forSome element fragment).Shows invariant (element.toList.flatMap targets) := by
  cases element with
  | none => exact keeps_empty
  | some present => simpa [forSome] using each present rfl

theorem keeps_forSome {element : Option α} {fragment : α → Fragment Build}
    (each : ∀ present, (fragment present).Keeps invariant) :
    (forSome element fragment).Keeps invariant :=
  (shows_forSome fun present _ => each present).keeps

/-- A fragment on a condition shows what it shows if the condition holds. -/
theorem Shows.onlyIf {condition : Bool} {fragment : Fragment Build} {targets : List Dri}
    (shows : fragment.Shows invariant targets) :
    (Fragment.onlyIf condition fragment).Shows invariant (if condition then targets else []) := by
  cases condition with
  | true => exact shows
  | false => exact keeps_empty

theorem Shows.keeps_onlyIf {condition : Bool} {fragment : Fragment Build} {targets : List Dri}
    (shows : fragment.Shows invariant targets) :
    (Fragment.onlyIf condition fragment).Keeps invariant :=
  shows.onlyIf.keeps

/-! ## Nodes -/

theorem shows_nodes (made : List Node) : (nodes made).Shows invariant (linksOf made) := fun _ =>
  ensures_pure (List.Subset.refl _)

theorem keeps_text (kind : Kind) (body : String) :
    (text kind body : Fragment Build).Keeps invariant := fun _ =>
  ensures_pure (List.nil_subset _)

theorem keeps_plainText (body : String) : (plainText body : Fragment Build).Keeps invariant :=
  fun _ => ensures_pure (List.nil_subset _)

private theorem ensures_wrap (own : List Dri) {step : Build (List Node)} {targets : List Dri}
    {wrap : List Node → Node}
    (ensures : Ensures invariant step fun nodes => targets ⊆ linksOf nodes)
    (links : ∀ nodes, (wrap nodes).links = own ++ linksOf nodes) :
    Ensures invariant (do return [wrap (← step)]) fun nodes => own ++ targets ⊆ linksOf nodes := by
  refine ensures.bind fun nodes linked => ensures_pure ?_
  rw [linksOf_cons, linksOf_nil, List.append_nil, links]
  exact List.append_subset.mpr
    ⟨List.subset_append_left _ _, List.subset_append_of_subset_right _ linked⟩

theorem Shows.group {body : Fragment Build} {targets : List Dri} (overrides : Overrides)
    (shows : body.Shows invariant targets) :
    (Fragment.group overrides body).Shows invariant targets := fun _ =>
  ensures_wrap [] (shows _) fun _ => links_eq _

theorem Shows.headerWith {body : Fragment Build} {targets : List Dri} (level : Nat) (title : String)
    (overrides : Overrides) (shows : body.Shows invariant targets) :
    (Fragment.headerWith level title overrides body).Shows invariant targets := fun _ =>
  ensures_wrap [] (((keeps_plainText title).append shows) _) fun _ => links_eq _

theorem keeps_header (level : Nat) (title : String) (kind : Kind) :
    (header level title kind : Fragment Build).Keeps invariant :=
  keeps_empty.headerWith level title _

theorem keeps_cover (title : String) : (cover title : Fragment Build).Keeps invariant :=
  fun scope => keeps_empty.headerWith 1 title _ scope

/-- A link shows its target. -/
theorem Shows.linkTo {body : Fragment Build} {targets : List Dri} (dri : Dri)
    (overrides : Overrides) (shows : body.Shows invariant targets) :
    (Fragment.linkTo (.declaration dri) overrides body).Shows invariant (dri :: targets) := fun _ =>
  ensures_wrap [dri] (shows _) fun _ => links_eq _

theorem shows_link (body : String) (dri : Dri) (kind : Kind) :
    (link body dri kind : Fragment Build).Shows invariant [dri] :=
  (keeps_plainText body).linkTo dri _

theorem Shows.platformHinted {body : Fragment Build} {targets : List Dri} (overrides : Overrides)
    (shows : body.Shows invariant targets) :
    (Fragment.platformHinted overrides body).Shows invariant targets := by
  refine fun scope => ensures_wrap [] (shows _) fun nodes => ?_
  simp [links_eq, linkedDri?, children]

/-! ## Variants -/

private theorem ensures_makePart {body : Fragment Build} {targets : List Dri} (scope : Scope)
    (overrides : Overrides) (shows : body.Shows invariant targets) :
    Ensures invariant (makePart scope (some (overrides, body))) fun made =>
      targets ⊆ linksOf made.toList := by
  refine (shows _).bind fun nodes linked => ensures_pure ?_
  simpa [links_eq, linkedDri?, children] using linked

private theorem ensures_makePart_none (scope : Scope) :
    Ensures invariant (makePart scope none) fun made => made = none :=
  ensures_pure rfl

end Fragment

/-- In every scope the variant makes a node that links to the declarations, and it keeps the
invariant of the session. -/
def Variant.Shows (invariant : Session → Prop) (variant : Variant Build) (targets : List Dri) :
    Prop :=
  ∀ scope, Ensures invariant (Fragment.makeVariant scope variant) fun node => targets ⊆ node.links

namespace Fragment

variable {invariant : Session → Prop} {α : Type}

/-- A variant shows what its distinguishing part shows. -/
theorem shows_variant {dris : OrderedSet Dri} {sourceSets : SourceSets}
    {extras : Extras Declaration} {divergent after : Fragment Build} {targets : List Dri}
    (divergentOverrides afterOverrides : Overrides) (shows : divergent.Shows invariant targets)
    (keeps : after.Keeps invariant) :
    Variant.Shows invariant
      { dris, sourceSets, extras, divergent := some (divergentOverrides, divergent)
        after := some (afterOverrides, after) }
      targets := by
  intro scope
  refine (ensures_makePart_none _).bind fun before _ => ?_
  refine (ensures_makePart _ divergentOverrides shows).bind fun main linked => ?_
  refine (ensures_makePart _ afterOverrides keeps).bind fun rest _ => ensures_pure ?_
  rw [links_eq, children, linksOf_append, linksOf_append]
  exact List.subset_append_of_subset_right _
    (List.subset_append_of_subset_left _ (List.subset_append_of_subset_right _ linked))

/-- Nodes that are made for the elements of a list link to what one of them links to. -/
private theorem ensures_mapM_links {elements : List α} {step : α → Build Node}
    {targets : List Dri}
    (keeps : ∀ element ∈ elements, Ensures invariant (step element) fun _ => True)
    (covers : ∀ dri ∈ targets, ∃ element ∈ elements,
      Ensures invariant (step element) fun node => [dri] ⊆ node.links) :
    Ensures invariant (elements.mapM step) fun nodes => targets ⊆ linksOf nodes := by
  have made : Ensures invariant (elements.mapM step) (List.Forall₂ (fun element node =>
      ∀ dri, (Ensures invariant (step element) fun node => [dri] ⊆ node.links) →
        dri ∈ node.links) elements) :=
    ensures_mapM fun element member session before =>
      ⟨fun dri links => (links session before).1 (List.mem_singleton_self dri),
        (keeps element member session before).2⟩
  refine made.weaken fun nodes related dri isTarget => ?_
  obtain ⟨element, member, links⟩ := covers dri isTarget
  obtain ⟨node, isMade, linked⟩ := exists_related_of_mem related member
  exact List.mem_flatMap.mpr ⟨node, isMade, linked dri links⟩

/-- The variants of a row show what one of them shows. -/
theorem shows_divergentGroup {variants : List (Variant Build)} {targets : List Dri}
    (groupId : String) (overrides : Overrides) (hinted : Bool)
    (keeps : ∀ variant ∈ variants, variant.Shows invariant [])
    (covers : ∀ dri ∈ targets, ∃ variant ∈ variants, variant.Shows invariant [dri]) :
    (divergentGroup groupId overrides hinted variants).Shows invariant targets := by
  intro scope
  have made : Ensures invariant (variants.mapM (makeVariant (scope.override overrides)))
      fun nodes => targets ⊆ linksOf nodes :=
    ensures_mapM_links (fun variant member => (keeps variant member _).weaken fun _ _ => trivial)
      fun dri isTarget =>
        let ⟨variant, member, shows⟩ := covers dri isTarget
        ⟨variant, member, shows _⟩
  refine made.bind fun nodes linked => ensures_pure ?_
  simpa [links_eq, linkedDri?, children] using linked

/-! ## Tables -/

theorem ensures_makeGroup {body : Fragment Build} {targets : List Dri} (scope : Scope)
    (overrides : Overrides) (shows : body.Shows invariant targets) :
    Ensures invariant (makeGroup scope overrides body) fun node => targets ⊆ node.links := by
  refine (shows _).bind fun nodes linked => ensures_pure ?_
  simpa [links_eq, linkedDri?, children] using linked

/-- A table has the rows that are made for the elements. -/
theorem ensures_plainTable {elements : List α} {row : α → Row Build} {shown : α → Node → Prop}
    (each : ∀ element ∈ elements, ∀ scope,
      Ensures (fun _ => True) (makeGroup scope (row element).1 (row element).2) (shown element))
    (overrides : Overrides) (scope : Scope) :
    Ensures (fun _ => True) (table overrides [] none (elements.map row) scope) fun nodes =>
      ∃ inner caption titles rows,
        nodes = [.table inner caption titles rows] ∧ List.Forall₂ shown elements rows := by
  refine (ensures_true _).bind fun titles _ => (ensures_true _).bind fun caption _ => ?_
  rw [List.mapM_map]
  exact (ensures_mapM fun element member => each element member _).bind fun rows areRows =>
    ensures_pure ⟨_, caption, titles, rows, rfl, areRows⟩

/-- A table without a caption shows what one of its rows shows. -/
theorem shows_table {titles : List (Fragment Build)} {rows : List (Row Build)}
    {targets : List Dri} (overrides : Overrides)
    (titlesKeep : ∀ title ∈ titles, title.Keeps invariant)
    (keeps : ∀ row ∈ rows, row.2.Keeps invariant)
    (covers : ∀ dri ∈ targets, ∃ row ∈ rows, row.2.Shows invariant [dri]) :
    (table overrides titles none rows).Shows invariant targets := by
  intro scope
  have titlesMade := ensures_mapM fun title member =>
    ensures_makeGroup (scope.override overrides) {} (titlesKeep title member)
  have rowsMade : Ensures invariant
      (rows.mapM fun row => makeGroup (scope.override overrides) row.1 row.2)
      fun nodes => targets ⊆ linksOf nodes :=
    ensures_mapM_links
      (fun row member => (ensures_makeGroup _ row.1 (keeps row member)).weaken fun _ _ => trivial)
      fun dri isTarget =>
        let ⟨row, member, shows⟩ := covers dri isTarget
        ⟨row, member, ensures_makeGroup _ row.1 shows⟩
  refine titlesMade.bind fun titleNodes _ => ?_
  refine (ensures_makePart_none _).bind fun captionNode _ => ?_
  refine rowsMade.bind fun rowNodes linked => ensures_pure ?_
  rw [linksOf_cons, links_eq, children, linksOf_append]
  exact List.subset_append_of_subset_left _
    (List.subset_append_of_subset_right _ (List.subset_append_of_subset_right _ linked))

theorem shows_titledRows {rows : List (Row Build)} {targets : List Dri} (title : String)
    (level : Nat) (kind : Kind) (settings : BlockSettings)
    (keeps : ∀ row ∈ rows, row.2.Keeps invariant)
    (covers : ∀ dri ∈ targets, ∃ row ∈ rows, row.2.Shows invariant [dri]) :
    (titledRows title level kind settings rows).Shows invariant targets := by
  cases rows with
  | nil =>
      refine keeps_empty.weaken fun dri isTarget => ?_
      obtain ⟨row, member, -⟩ := covers dri isTarget
      exact (List.not_mem_nil member).elim
  | cons head tail =>
      exact (keeps_header level title kind).append
        (shows_table _ (fun _ member => (List.not_mem_nil member).elim) keeps covers)

/-- Rows show what the row of one element shows, in whatever order the elements stand. -/
private theorem shows_orderedRows {elements : List α} {row : α → Row Build} {targets : List Dri}
    (title : String) (level : Nat) (kind : Kind) (settings : BlockSettings)
    (compare : α → α → Ordering) (keeps : ∀ element ∈ elements, (row element).2.Keeps invariant)
    (covers : ∀ dri ∈ targets, ∃ element ∈ elements, (row element).2.Shows invariant [dri]) :
    (titledRows title level kind settings
      ((if settings.sorted then sortBy compare elements else elements).map row)).Shows
        invariant targets := by
  have sameElements : ∀ element,
      element ∈ (if settings.sorted then sortBy compare elements else elements) ↔
        element ∈ elements := by
    intro element
    split
    · exact mem_sortBy
    · exact Iff.rfl
  refine shows_titledRows title level kind settings (fun shown member => ?_) fun dri isTarget => ?_
  · obtain ⟨element, inOrder, rfl⟩ := List.mem_map.mp member
    exact keeps element ((sameElements element).mp inOrder)
  · obtain ⟨element, inElements, shows⟩ := covers dri isTarget
    exact ⟨_, List.mem_map_of_mem ((sameElements element).mpr inElements), shows⟩

/-- A block shows what the row of one of its elements shows. -/
theorem shows_block {elements : List α} {body : α → Fragment Build} {targets : List Dri}
    (title : String) (level : Nat) (kind : Kind) (subject : α → RowSubject)
    (settings : BlockSettings) (keeps : ∀ element ∈ elements, (body element).Keeps invariant)
    (covers : ∀ dri ∈ targets, ∃ element ∈ elements, (body element).Shows invariant [dri]) :
    (block title level kind elements subject settings body).Shows invariant targets :=
  shows_orderedRows title level kind settings _ keeps covers

theorem keeps_block {elements : List α} {body : α → Fragment Build} (title : String) (level : Nat)
    (kind : Kind) (subject : α → RowSubject) (settings : BlockSettings)
    (keeps : ∀ element ∈ elements, (body element).Keeps invariant) :
    (block title level kind elements subject settings body).Keeps invariant :=
  shows_block title level kind subject settings keeps
    fun _ member => (List.not_mem_nil member).elim

/-- A block of named groups shows what the row of one of them shows. -/
theorem shows_multiBlock {groups : List (String × List α)} {body : String → List α → Fragment Build}
    {targets : List Dri} (title : String) (level : Nat) (kind : Kind) (subject : α → RowSubject)
    (settings : BlockSettings)
    (keeps : ∀ group ∈ groups, (body group.1 group.2).Keeps invariant)
    (covers : ∀ dri ∈ targets, ∃ group ∈ groups, (body group.1 group.2).Shows invariant [dri]) :
    (multiBlock title level kind groups subject settings body).Shows invariant targets :=
  shows_orderedRows title level kind settings _ keeps covers

end Fragment

end Content

end DocPages
