import DocPages.Page.Sections
import DocPages.Proofs.Content.Fragments
import DocPages.Proofs.Content.Rules

/-!
# What sections obey

Sections of documentation touch the session only through the renderers of custom tags, so that they
obey every rule that the renderers obey, and keep every invariant that the renderers keep.
-/

namespace DocPages

open Content Build

namespace TagRenderer

/-- What the renderer shows obeys the rule. -/
structure Obeys (rule : Rule) (renderer : TagRenderer) : Prop where
  description : ∀ id name root, (renderer.description id name root).Obeys rule
  brief : ∀ id name root, (renderer.brief id name root).Obeys rule

/-- The standard renderer obeys every rule that composes. -/
theorem obeys_sinceKotlin {rule : Rule} (composes : rule.Composes) : sinceKotlin.Obeys rule where
  description _ name root := Fragment.obeys_group composes _ <|
    Fragment.obeys_append composes (Fragment.obeys_header composes 4 name .comment)
      (Fragment.obeys_comment composes root)
  brief _ name root := Fragment.obeys_group composes _ <|
    Fragment.obeys_append composes (Fragment.obeys_text composes .comment (name ++ " "))
      (Fragment.obeys_comment composes root)

/-- What the renderer shows keeps the invariant of the session. -/
structure Keeps (invariant : Session → Prop) (renderer : TagRenderer) : Prop where
  description : ∀ id name root, (renderer.description id name root).Keeps invariant
  brief : ∀ id name root, (renderer.brief id name root).Keeps invariant

end TagRenderer

theorem Content.Fragment.keeps_iff {invariant : Session → Prop} {fragment : Fragment Build} :
    fragment.Keeps invariant ↔ fragment.Obeys (keeping invariant) :=
  forall_congr' fun _ => ⟨fun keeps => keeps.weaken fun _ _ => trivial,
    fun obeys => obeys.weaken fun _ _ => List.nil_subset _⟩

theorem TagRenderer.Keeps.obeys {invariant : Session → Prop} {renderer : TagRenderer}
    (keeps : renderer.Keeps invariant) : renderer.Obeys (keeping invariant) where
  description id name root := Fragment.keeps_iff.mp (keeps.description id name root)
  brief id name root := Fragment.keeps_iff.mp (keeps.brief id name root)

/-- The standard renderer leaves every session as it is. -/
theorem TagRenderer.keeps_sinceKotlin (invariant : Session → Prop) :
    TagRenderer.sinceKotlin.Keeps invariant where
  description id name root :=
    Fragment.keeps_iff.mpr ((obeys_sinceKotlin composes_keeping).description id name root)
  brief id name root :=
    Fragment.keeps_iff.mpr ((obeys_sinceKotlin composes_keeping).brief id name root)

namespace Section

open Fragment

section

variable {rule : Rule} (composes : rule.Composes) {renderers : List TagRenderer}

include composes

private theorem obeys_sourcedComment (kind : Option Kind) (id : SourceSetId) (root : Markup) :
    (sourcedComment kind id root).Obeys rule :=
  obeys_group composes _ (obeys_comment composes root)

private theorem obeys_deprecation (tags : List SourcedTag) : (deprecation tags).Obeys rule := by
  refine obeys_forEach composes fun sourced _ => ?_
  split
  · exact obeys_group composes _
      (obeys_append composes (obeys_header composes 3 _ .deprecation) (obeys_comment composes _))
  · exact obeys_empty composes

private theorem obeys_description (declaration : Declaration) :
    (description declaration).Obeys rule :=
  obeys_forEach composes fun _ _ => obeys_forSome composes fun _ _ =>
    obeys_sourcedComment composes _ _ _

private theorem obeys_customTags
    {shown : TagRenderer → SourceSetId → String → Markup → Fragment Build}
    (obeys : ∀ renderer ∈ renderers, ∀ id name root, (shown renderer id name root).Obeys rule)
    (tags : List SourcedTag) : (customTags shown renderers tags).Obeys rule := by
  refine obeys_forEach composes fun sourced _ => ?_
  split
  · exact obeys_forEach composes fun renderer member =>
      obeys renderer (List.mem_filter.mp member).1 _ _ _
  · exact obeys_empty composes

private theorem obeys_unnamedTags (selects : CommentTag → Bool) (tags : List SourcedTag) :
    (unnamedTags selects tags).Obeys rule := by
  rw [unnamedTags]
  split
  · exact obeys_empty composes
  · exact obeys_append composes (obeys_header composes 4 _ .comment)
      (obeys_forEach composes fun sourced _ => obeys_sourcedComment composes _ _ _)

private theorem obeys_rowTitle (kind : Kind) (row : NamedTag) : (rowTitle kind row).Obeys rule := by
  rw [rowTitle]
  split
  · exact obeys_linkTo composes _ _ (obeys_text composes kind row.name)
  · exact obeys_styledText composes kind _ row.name

private theorem obeys_namedTable (title : String) (kind : Kind) (rows : List NamedTag) :
    (namedTable title kind rows).Obeys rule := by
  refine obeys_onlyIf composes (obeys_append composes (obeys_header composes 4 title kind)
    (obeys_plainTable composes _ (List.forall_mem_map.mpr fun tag _ => ?_)))
  exact obeys_append composes (obeys_rowTitle composes kind tag) (obeys_comment composes tag.root)

private theorem obeys_samples (tags : List SourcedTag) : (samples tags).Obeys rule :=
  obeys_onlyIf composes (obeys_append composes (obeys_header composes 4 "Samples" .sample)
    (obeys_forEach composes fun _ _ => obeys_group composes _ (obeys_text composes .sample _)))

/-- The full description obeys what the renderers obey. -/
theorem obeys_descriptions (renders : ∀ renderer ∈ renderers, renderer.Obeys rule)
    (declaration : Declaration) : (descriptions renderers declaration).Obeys rule := by
  have custom := obeys_customTags composes
    (fun renderer member => (renders renderer member).description) declaration.sourcedTags
  refine obeys_concat composes ?_
  simp [obeys_deprecation composes, obeys_description composes, obeys_unnamedTags composes,
    obeys_namedTable composes, obeys_samples composes, custom]

theorem obeys_briefComment (sourceSets : SourceSets) (root : Markup) :
    (briefComment sourceSets root).Obeys rule :=
  obeys_group composes _ (obeys_comment composes _)

theorem obeys_brief (declaration : Declaration) : (brief declaration).Obeys rule :=
  obeys_forEach composes fun _ _ => obeys_forSome composes fun _ _ =>
    obeys_briefComment composes _ _

theorem obeys_customTagBriefs (renders : ∀ renderer ∈ renderers, renderer.Obeys rule)
    (declaration : Declaration) : (customTagBriefs renderers declaration).Obeys rule :=
  obeys_customTags composes (fun renderer member => (renders renderer member).brief) _

end

/-! ## Invariants -/

variable {invariant : Session → Prop} {renderers : List TagRenderer}

/-- The full description keeps what the renderers keep. -/
theorem keeps_descriptions (renders : ∀ renderer ∈ renderers, renderer.Keeps invariant)
    (declaration : Declaration) : (descriptions renderers declaration).Keeps invariant :=
  keeps_iff.mpr (obeys_descriptions composes_keeping
    (fun renderer member => (renders renderer member).obeys) declaration)

theorem keeps_briefComment (sourceSets : SourceSets) (root : Markup) :
    (briefComment sourceSets root).Keeps invariant :=
  keeps_iff.mpr (obeys_briefComment composes_keeping sourceSets root)

theorem keeps_brief (declaration : Declaration) : (brief declaration).Keeps invariant :=
  keeps_iff.mpr (obeys_brief composes_keeping declaration)

theorem keeps_customTagBriefs (renders : ∀ renderer ∈ renderers, renderer.Keeps invariant)
    (declaration : Declaration) : (customTagBriefs renderers declaration).Keeps invariant :=
  keeps_iff.mpr (obeys_customTagBriefs composes_keeping
    (fun renderer member => (renders renderer member).obeys) declaration)

end Section

end DocPages
