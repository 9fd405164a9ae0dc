import DocPages.Proofs.Content.Outlines
import DocPages.Proofs.Page.Listed

/-!
# Outlines of descriptions and listings

A description shows notes, each for one source set, and sections below headings, which have all
source sets of the declaration. So a description covers what encloses it if it has a heading, a note
for every source set, or nothing at all. A brief has notes alone, and a listing is covered if the
briefs of its variants cover what encloses them.
-/

namespace DocPages

open Content

namespace CommentTag

def isDeprecated : CommentTag → Bool
  | .deprecated _ => true
  | _ => false

/-- The tag names the version of the language. -/
def isVersion : CommentTag → Bool
  | .custom name _ => name == "Since Kotlin"
  | _ => false

def isParameter : CommentTag → Bool
  | .param .. => true
  | _ => false

def isReference : CommentTag → Bool
  | .see .. => true
  | _ => false

def isException : CommentTag → Bool
  | .throws .. => true
  | _ => false

def isSample : CommentTag → Bool
  | .sample .. => true
  | _ => false

/-- The tag is shown below the heading of a section. -/
def isHeaded : CommentTag → Bool
  | .returns _ | .since _ | .author _ | .param .. | .see .. | .throws .. | .sample .. => true
  | _ => false

end CommentTag

namespace Declaration

/-- The source sets of the tags that are selected. -/
def taggedIn (selects : CommentTag → Bool) (declaration : Declaration) : List SourceSetId :=
  (declaration.sourcedTags.filter (selects ·.tag)).map SourcedTag.id

theorem mem_taggedIn {selects : CommentTag → Bool} {declaration : Declaration} {id : SourceSetId} :
    id ∈ declaration.taggedIn selects ↔
      ∃ sourced ∈ declaration.sourcedTags, selects sourced.tag ∧ sourced.id = id := by
  simp [taggedIn, and_assoc]

/-- The source sets for which the description has a note. -/
def notedIn (declaration : Declaration) : List SourceSetId :=
  declaration.taggedIn CommentTag.isDeprecated ++
    (declaration.documentation.entries.filter fun entry =>
      (declaration.describingTag? entry.2).isSome).map Prod.fst ++
    declaration.taggedIn CommentTag.isVersion

/-- The source sets for which the brief has a summary of the description. -/
def summarizedIn (declaration : Declaration) : List SourceSetId :=
  declaration.sourceSets.toList.filter fun id =>
    ((declaration.documentation.get? id).bind declaration.describingTag?).isSome

/-- The source sets for which the brief has a note. -/
def briefedIn (declaration : Declaration) : List SourceSetId :=
  declaration.summarizedIn ++ declaration.taggedIn CommentTag.isVersion

/-- The description has a heading, a note for every source set, or nothing at all. -/
def IsDescribed (declaration : Declaration) : Prop :=
  declaration.taggedIn CommentTag.isHeaded = [] → declaration.notedIn ≠ [] →
    ∀ id ∈ declaration.sourceSets.toList, id ∈ declaration.notedIn

/-- The brief has a note for every source set, or nothing at all. -/
def IsBriefed (declaration : Declaration) : Prop :=
  declaration.briefedIn ≠ [] → ∀ id ∈ declaration.sourceSets.toList, id ∈ declaration.briefedIn

end Declaration

namespace Content.Outline

/-- A heading with some source sets above nodes for one source set each, or nothing without such
nodes. -/
def headed (sourceSets : SourceSets) (ids : List SourceSetId) : Outline :=
  if ids = [] then .empty else .leaf sourceSets ++ .ofIds ids

theorem headed_append (sourceSets : SourceSets) (left right : List SourceSetId) :
    headed sourceSets left ++ headed sourceSets right = headed sourceSets (left ++ right) := by
  by_cases leftEmpty : left = []
  · simp [headed, leftEmpty]
  · by_cases rightEmpty : right = []
    · simp [headed, rightEmpty]
    · ext <;> simp [headed, leftEmpty, rightEmpty, leaf, single, ofIds]
      tauto

theorem headed_map {α : Type} (sourceSets : SourceSets) {elements : List α}
    (notEmpty : elements ≠ []) (id : α → SourceSetId) :
    headed sourceSets (elements.map id) =
      .leaf sourceSets ++ .concat (elements.map fun element => .ofIds [id element]) := by
  rw [headed, if_neg (by simpa using notEmpty), concat_ofIds fun element => [id element],
    ← List.map_eq_flatMap]

theorem headed_congr (sourceSets : SourceSets) {left right : List SourceSetId}
    (same : ∀ id, id ∈ left ↔ id ∈ right) : headed sourceSets left = headed sourceSets right := by
  have sameEmpty : left = [] ↔ right = [] := by
    simp only [List.eq_nil_iff_forall_not_mem, same]
  ext <;> simp [headed, sameEmpty, apply_ite, leaf, single, ofIds, same]

end Content.Outline

namespace Declaration

/-- The outline of the description in the source sets of the declaration. -/
def descriptionOutline (declaration : Declaration) : Outline :=
  .ofIds declaration.notedIn ++
    .headed declaration.sourceSets (declaration.taggedIn CommentTag.isHeaded)

theorem covered_descriptionOutline (declaration : Declaration) :
    declaration.descriptionOutline.covered := by
  rw [descriptionOutline, Outline.headed]
  split <;> simp

/-- The description covers what encloses it if it has a heading, notes for all source sets, or
nothing at all. -/
theorem covered_wrap_descriptionOutline (declaration : Declaration) :
    (declaration.descriptionOutline.wrap declaration.sourceSets).covered ↔
      declaration.IsDescribed := by
  change (_ ∧ _) ↔ _
  rw [and_iff_left declaration.covered_descriptionOutline, IsDescribed, descriptionOutline,
    Outline.headed]
  by_cases noHeading : declaration.taggedIn CommentTag.isHeaded = []
  · simp [noHeading, Outline.ofIds]
  · simp +contextual [noHeading, Outline.leaf, Outline.single]

end Declaration

namespace Section

open Fragment

variable {invariant : Session → Prop}

/-! ## Descriptions -/

private theorem hasOutline_sourcedComment (kind : Option Kind) (id : SourceSetId) (root : Markup) :
    (sourcedComment kind id root).HasOutline invariant fun _ => .ofIds [id] :=
  ((hasOutline_comment root).group _).congr fun _ =>
    (Outline.wrap_leaf _).trans (Outline.leaf_singleton id)

/-- A note for each of the elements that are selected. -/
private theorem hasOutline_forEach_selected {α : Type} {elements : List α}
    {fragment : α → Fragment Build} (selects : α → Bool) (id : α → SourceSetId)
    (each : ∀ element ∈ elements, (fragment element).HasOutline invariant fun _ =>
      if selects element then .ofIds [id element] else .empty) :
    (forEach elements fragment).HasOutline invariant fun _ =>
      .ofIds ((elements.filter selects).map id) := by
  refine (hasOutline_forEach each).congr fun _ => ?_
  clear each
  induction elements with
  | nil => simp
  | cons head tail ih =>
      rw [List.map_cons, Outline.concat_cons, ih, List.filter_cons]
      split <;> simp [Outline.ofIds_append]

/-- A note of a title and a comment. -/
theorem hasOutline_note {overrides : Overrides} {id : SourceSetId}
    {title : Fragment Build} (stated : overrides.sourceSets = some (.singleton id))
    (titleHas : title.HasOutline invariant Outline.leaf) (root : Markup) :
    (Fragment.group overrides (title ++ .comment root)).HasOutline invariant fun _ =>
      .ofIds [id] := by
  refine ((titleHas.append (hasOutline_comment root)).group _).congr fun sourceSets => ?_
  rw [Overrides.innerSourceSets, stated, Option.getD_some, Outline.leaf_append_leaf,
    Outline.wrap_leaf, Outline.leaf_singleton]

private theorem hasOutline_deprecation (declaration : Declaration) :
    (deprecation declaration.sourcedTags).HasOutline invariant fun _ =>
      .ofIds (declaration.taggedIn CommentTag.isDeprecated) := by
  refine hasOutline_forEach_selected _ _ fun sourced _ => ?_
  obtain ⟨id, tag⟩ := sourced
  cases tag with
  | deprecated root =>
      exact hasOutline_note rfl (hasOutline_header 3 _ .deprecation) root
  | _ => exact hasOutline_empty

private theorem hasOutline_description (declaration : Declaration) :
    (description declaration).HasOutline invariant fun _ =>
      .ofIds ((declaration.documentation.entries.filter fun entry =>
        (declaration.describingTag? entry.2).isSome).map Prod.fst) := by
  refine hasOutline_forEach_selected _ _ fun entry _ => ?_
  obtain ⟨id, comment⟩ := entry
  refine (hasOutline_forSome fun tag _ => hasOutline_sourcedComment none id tag.root).congr
    fun _ => ?_
  cases declaration.describingTag? comment <;> simp

private theorem hasOutline_customTags
    {shown : TagRenderer → SourceSetId → String → Markup → Fragment Build}
    (standard : ∀ id name root, (shown .sinceKotlin id name root).HasOutline invariant fun _ =>
      .ofIds [id]) (declaration : Declaration) :
    (customTags shown [.sinceKotlin] declaration.sourcedTags).HasOutline invariant fun _ =>
      .ofIds (declaration.taggedIn CommentTag.isVersion) := by
  refine hasOutline_forEach_selected _ _ fun sourced _ => ?_
  obtain ⟨id, tag⟩ := sourced
  cases tag with
  | custom name root =>
      have each : ∀ renderer ∈ [TagRenderer.sinceKotlin].filter (·.applies name),
          (shown renderer id name root).HasOutline invariant fun _ => .ofIds [id] := by
        intro renderer member
        obtain rfl := List.mem_singleton.mp (List.mem_filter.mp member).1
        exact standard id name root
      refine (hasOutline_forEach each).congr fun _ => ?_
      cases isVersion : name == "Since Kotlin" <;>
        simp [TagRenderer.sinceKotlin, CommentTag.isVersion, isVersion]
  | _ => exact hasOutline_empty

private theorem hasOutline_unnamedTags (selects : CommentTag → Bool) (declaration : Declaration) :
    (unnamedTags selects declaration.sourcedTags).HasOutline invariant fun sourceSets =>
      .headed sourceSets (declaration.taggedIn selects) := by
  rw [unnamedTags, Declaration.taggedIn]
  cases declaration.sourcedTags.filter (selects ·.tag) with
  | nil => exact hasOutline_empty
  | cons first rest =>
      refine ((hasOutline_header 4 _ .comment).append (hasOutline_forEach fun sourced _ =>
        hasOutline_sourcedComment _ sourced.id sourced.tag.root)).congr fun sourceSets => ?_
      exact (Outline.headed_map sourceSets (List.cons_ne_nil first rest) SourcedTag.id).symm

private theorem hasOutline_rowTitle (kind : Kind) (row : NamedTag) :
    (rowTitle kind row).HasOutline invariant Outline.leaf := by
  rw [rowTitle]
  split
  · exact ((hasOutline_text kind row.name).linkTo _ _).congr Outline.wrap_leaf
  · exact hasOutline_styledText kind _ row.name

private theorem hasOutline_namedTable (title : String) (kind : Kind) (rows : List NamedTag) :
    (namedTable title kind rows).HasOutline invariant fun sourceSets =>
      .headed sourceSets (rows.map NamedTag.id) := by
  have row (tag : NamedTag) : Row.HasOutline invariant
      ({ sourceSets := some (.singleton tag.id), kind := some kind },
        rowTitle kind tag ++ .comment tag.root) (.ofIds [tag.id]) := by
    rw [← Outline.leaf_singleton, ← Outline.wrap_leaf, ← Outline.leaf_append_leaf]
    exact hasOutline_row rfl ((hasOutline_rowTitle kind tag).append (hasOutline_comment tag.root))
  have table : (Fragment.table
      { kind := some kind, sourceSets := some (.ofList (rows.map NamedTag.id)) } [] none
      (rows.map fun tag => ({ sourceSets := some (.singleton tag.id), kind := some kind },
        rowTitle kind tag ++ .comment tag.root))).HasOutline invariant fun _ =>
          .leaf (.ofList (rows.map NamedTag.id)) := by
    refine (hasOutline_table _ (fun _ member => (List.not_mem_nil member).elim)
      (forall₂_map_map fun tag _ => row tag)).congr fun _ => ?_
    rw [List.map_nil, Outline.concat_nil, Outline.empty_append,
      Outline.concat_ofIds fun tag : NamedTag => [tag.id], ← List.map_eq_flatMap]
    exact Outline.wrap_ofIds fun _ => OrderedSet.mem_ofList.mp
  refine (((hasOutline_header 4 title kind).append table).onlyIf _).congr fun sourceSets => ?_
  cases rows with
  | nil => rfl
  | cons first rest => ext <;> simp [Outline.headed, Outline.leaf, Outline.single, Outline.ofIds]

/-- What is taken from parts of tags is taken from the tags themselves, if those with a part are
selected. -/
theorem map_filterMap_eq {α β : Type} {part? : SourcedTag → Option α} {ofPart : α → β}
    {ofTag : SourcedTag → β} {selects : CommentTag → Bool}
    (parts : ∀ sourced, (part? sourced).map ofPart =
      if selects sourced.tag then some (ofTag sourced) else none) (tags : List SourcedTag) :
    (tags.filterMap part?).map ofPart = (tags.filter (selects ·.tag)).map ofTag := by
  rw [List.map_filterMap]
  induction tags with
  | nil => rfl
  | cons head tail ih =>
      rw [List.filterMap_cons, parts, List.filter_cons, ih]
      cases selects head.tag <;> rfl

private theorem hasOutline_samples (declaration : Declaration) :
    (samples declaration.sourcedTags).HasOutline invariant fun sourceSets =>
      .headed sourceSets (declaration.taggedIn CommentTag.isSample) := by
  unfold samples
  extract_lets named
  have ids : named.map Prod.fst = declaration.taggedIn CommentTag.isSample := by
    refine map_filterMap_eq (fun sourced => ?_) declaration.sourcedTags
    obtain ⟨id, tag⟩ := sourced
    cases tag <;> rfl
  have shown : (Fragment.forEach named fun sample =>
      Fragment.group
        { sourceSets := some (.singleton sample.1), kind := some .sample
          styles := some (.singleton .monospace) }
        (.text .sample sample.2)).HasOutline invariant fun _ =>
          .concat (named.map fun sample => .ofIds [sample.1]) :=
    hasOutline_forEach fun sample _ => ((hasOutline_text .sample sample.2).group _).congr fun _ =>
      (Outline.wrap_leaf _).trans (Outline.leaf_singleton sample.1)
  rw [← ids]
  refine (((hasOutline_header 4 "Samples" .sample).append shown).onlyIf _).congr
    fun sourceSets => ?_
  cases named with
  | nil => rfl
  | cons first rest => exact (Outline.headed_map sourceSets (List.cons_ne_nil first rest) _).symm

/-- The description of a declaration has its notes, and its other tags below headings. -/
theorem hasOutline_descriptions (declaration : Declaration) :
    (descriptions [.sinceKotlin] declaration).HasOutline invariant fun sourceSets =>
      .ofIds declaration.notedIn ++
        .headed sourceSets (declaration.taggedIn CommentTag.isHeaded) := by
  have versions : (customTags TagRenderer.description [.sinceKotlin]
      declaration.sourcedTags).HasOutline invariant fun _ =>
        .ofIds (declaration.taggedIn CommentTag.isVersion) :=
    hasOutline_customTags
      (fun _ name root => hasOutline_note rfl (hasOutline_header 4 name .comment) root) declaration
  have table (title : String) (kind : Kind) (row? : SourcedTag → Option NamedTag)
      (selects : CommentTag → Bool)
      (rows : ∀ id tag, (row? ⟨id, tag⟩).map NamedTag.id = if selects tag then some id else none) :
      (namedTable title kind (declaration.sourcedTags.filterMap row?)).HasOutline invariant
        fun sourceSets => .headed sourceSets (declaration.taggedIn selects) := by
    have ids : (declaration.sourcedTags.filterMap row?).map NamedTag.id =
        declaration.taggedIn selects :=
      map_filterMap_eq (fun sourced => rows sourced.id sourced.tag) _
    exact ids ▸ hasOutline_namedTable title kind _
  have parameters := table "Parameters" .parameters parameterRow? CommentTag.isParameter
    fun _ tag => by cases tag <;> rfl
  have references := table "See also" .comment referenceRow? CommentTag.isReference
    fun _ tag => by cases tag <;> rfl
  have exceptions := table "Throws" .comment exceptionRow? CommentTag.isException
    fun _ tag => by cases tag <;> rfl
  have made := (hasOutline_deprecation declaration).append <|
    (hasOutline_description declaration).append <| versions.append <|
    (hasOutline_unnamedTags isReturn declaration).append <|
    (hasOutline_unnamedTags isSince declaration).append <|
    (hasOutline_unnamedTags isAuthor declaration).append <|
    parameters.append <| references.append <| exceptions.append <|
    (hasOutline_samples declaration).append hasOutline_empty
  refine HasOutline.congr made fun sourceSets => ?_
  simp only [Outline.append_empty, Outline.headed_append]
  rw [Declaration.notedIn, ← Outline.ofIds_append, ← Outline.ofIds_append, Outline.append_assoc,
    Outline.append_assoc]
  congr 3
  refine Outline.headed_congr sourceSets fun id => ?_
  simp only [List.mem_append, Declaration.mem_taggedIn, ← exists_or, ← and_or_left, ← or_and_right]
  refine exists_congr fun sourced => and_congr_right fun _ => and_congr_left fun _ => ?_
  cases sourced.tag <;> simp [CommentTag.isHeaded, isReturn, isSince, isAuthor,
    CommentTag.isParameter, CommentTag.isReference, CommentTag.isException, CommentTag.isSample]

/-! ## Briefs -/

theorem hasOutline_briefComment (sourceSets : SourceSets) (root : Markup) :
    (briefComment sourceSets root).HasOutline invariant fun _ => .leaf sourceSets :=
  ((hasOutline_comment root.firstParagraph).group _).congr fun _ => Outline.wrap_leaf sourceSets

theorem hasOutline_brief (declaration : Declaration) :
    (brief declaration).HasOutline invariant fun _ => .ofIds declaration.summarizedIn := by
  refine (hasOutline_forEach_selected
    (fun id => ((declaration.documentation.get? id).bind declaration.describingTag?).isSome) id
    fun id _ => ?_).congr fun _ => by rw [Declaration.summarizedIn, List.map_id]
  refine (hasOutline_forSome fun tag _ => hasOutline_briefComment _ tag.root).congr fun _ => ?_
  cases (declaration.documentation.get? id).bind declaration.describingTag? <;>
    simp [Outline.leaf_singleton]

/-- A brief has notes alone. -/
theorem hasOutline_briefs (declaration : Declaration) :
    (brief declaration ++ customTagBriefs [.sinceKotlin] declaration).HasOutline invariant
      fun _ => .ofIds declaration.briefedIn := by
  have versions : (customTagBriefs [.sinceKotlin] declaration).HasOutline invariant fun _ =>
      .ofIds (declaration.taggedIn CommentTag.isVersion) :=
    hasOutline_customTags
      (fun _ _ root => hasOutline_note rfl (hasOutline_text .comment _) root) declaration
  exact ((hasOutline_brief declaration).append versions).congr fun _ =>
    Outline.ofIds_append _ _

end Section

/-! ## Listings -/

namespace Listing

open Fragment Declaration

/-- A variant is covered if its brief covers it; its signature has all its source sets. -/
private theorem hasOutline_variant (kind : Kind) {declaration : Declaration}
    (shown : declaration.hasSignature) :
    Variant.HasOutline Session.IsSound (variant [.sinceKotlin] kind declaration)
      (.single declaration.sourceSets declaration.IsBriefed) := by
  have signed : (Outline.ofIds declaration.sourceSets.toList).wrap declaration.sourceSets =
      .leaf declaration.sourceSets := Outline.wrap_ofIds fun _ => id
  have covered : (((Outline.ofIds declaration.sourceSets.toList).wrap
        declaration.sourceSets).wrap declaration.sourceSets).covered ∧
      ((Outline.ofIds declaration.briefedIn).wrap declaration.sourceSets).covered ↔
      declaration.IsBriefed := by
    rw [signed, Outline.wrap_leaf]
    simp [Outline.leaf, Outline.single, Outline.wrap, Outline.ofIds, IsBriefed]
  rw [← propext covered]
  exact Fragment.hasOutline_variant rfl rfl ((hasOutline_signature shown).group {})
    (Section.hasOutline_briefs declaration)

/-- A row is covered if the briefs of its variants cover them. -/
private theorem hasOutline_row (listing : Listing) (key : RowKey) (first : Declaration)
    {variants : List Declaration} (shown : ∀ variant ∈ variants, variant.hasSignature) :
    Row.HasOutline Session.IsSound (listing.row [.sinceKotlin] key first variants)
      (.single (sourceSetsOf variants) (∀ variant ∈ variants, variant.IsBriefed)) := by
  have each : List.Forall₂ (Variant.HasOutline Session.IsSound)
      (variants.map (variant [.sinceKotlin] (listing.rowKind key)))
      (variants.map fun variant => .single variant.sourceSets variant.IsBriefed) :=
    forall₂_map_map fun variant member => hasOutline_variant _ (shown variant member)
  refine (Fragment.hasOutline_row rfl (((hasOutline_text _ _).linkTo _ _).append
    (hasOutline_divergentGroup _ _ true each))).congr ?_
  simp [Overrides.innerSourceSets, Outline.concat, Outline.single]

/-- The rows of a listing are covered if the briefs of all variants cover them. -/
private theorem exists_outlines_of_rows (listing : Listing)
    {rows : List (RowKey × List Declaration)}
    (shown : ∀ variant ∈ rows.flatMap Prod.snd, variant.hasSignature) :
    ∃ outlines, List.Forall₂ (Row.HasOutline Session.IsSound)
      (rows.filterMap fun row => row.2.head?.map fun first =>
        listing.row [.sinceKotlin] row.1 first row.2) outlines ∧
      ((Outline.concat outlines).covered ↔
        ∀ variant ∈ rows.flatMap Prod.snd, variant.IsBriefed) := by
  induction rows with
  | nil => exact ⟨[], .nil, by simp [Outline.concat]⟩
  | cons row rows ih =>
      obtain ⟨key, variants⟩ := row
      rw [List.flatMap_cons, List.forall_mem_append] at shown
      obtain ⟨outlines, related, covered⟩ := ih shown.2
      rw [List.flatMap_cons, List.forall_mem_append, ← covered]
      cases variants with
      | nil => exact ⟨outlines, related, by simp⟩
      | cons first others =>
          exact ⟨_, .cons (hasOutline_row listing key first shown.1) related, by
            rw [Outline.concat_cons, Outline.covered_append, Outline.single]⟩

/-- A listing is covered if the briefs of the variants in it cover them, and it has all source sets
of its scope unless it is empty. -/
theorem hasOutline_fragment {listing : Listing}
    (shown : ∀ declaration ∈ listing.declarations, declaration.hasSignature) :
    (listing.fragment [.sinceKotlin]).HasOutline Session.IsSound fun sourceSets =>
      if listing.declarations = [] then .empty
      else .single sourceSets
        (∀ variant ∈ listedVariants listing.declarations, variant.IsBriefed) := by
  have variantsShown : ∀ variant ∈ listedVariants listing.declarations, variant.hasSignature :=
    fun variant isListed => shown variant (mem_of_mem_listedVariants isListed)
  obtain ⟨outlines, rows, covered⟩ := exists_outlines_of_rows listing variantsShown
  have title (name : String) : (Fragment.group {} (.text .main name)).HasOutline Session.IsSound
      Outline.leaf :=
    ((hasOutline_text .main name).group {}).congr fun sourceSets => Outline.wrap_leaf sourceSets
  have titles : ∀ shown ∈ ([Fragment.group {} (.text .main "Name") ++
      Fragment.group {} (.text .main "Summary")] : List (Fragment Build)),
      shown.HasOutline Session.IsSound Outline.leaf :=
    List.forall_mem_singleton.mpr (((title "Name").append (title "Summary")).congr
      Outline.leaf_append_leaf)
  refine HasOutline.congr ((((hasOutline_headerWith 2 listing.title _).append
    (hasOutline_table _ titles rows)).group _).onlyIf _) fun sourceSets => ?_
  simp only [Overrides.innerSourceSets, Option.getD_none]
  by_cases isEmpty : listing.declarations = []
  · simp [isEmpty]
  · simp only [isEmpty, List.isEmpty_eq_false_iff.mpr isEmpty, Bool.not_false, if_true, if_false]
    rw [Outline.wrap_leaf_append, List.map_singleton, Outline.concat_cons, Outline.concat_nil,
      Outline.append_empty, Outline.wrap_leaf_append]
    exact congrArg (Outline.single sourceSets) (propext covered)

end Listing

end DocPages
