import DocPages.Page.Contents
import DocPages.Proofs.Content.Texts
import DocPages.Proofs.Page.Outlines

/-!
# Entries of descriptions

A description has an entry for each tag that it shows: a group of its own, or a row in the table of
its section. The entry has the source set and the text of the tag. Sections pick their tags from the
same list, by source set and then in written order, and no tag belongs to two of them.
-/

namespace DocPages

open Content

/-- The text that is shown for a tag. -/
def CommentTag.shownText : CommentTag → String
  | .deprecated root => "Deprecated" ++ root.plainTextWith ""
  | .param name root | .throws name _ root | .see name _ root | .custom name root =>
    name ++ root.plainTextWith ""
  | .sample name _ => name
  | .description root | .property _ root | .returns root | .since root | .author root =>
    root.plainTextWith ""

/-- The tag is shown, whatever other tags there are. -/
def CommentTag.isShown : CommentTag → Bool
  | .deprecated _ | .returns _ | .since _ | .author _ | .param .. | .see .. | .throws ..
  | .sample .. => true
  | .custom name _ => name == "Since Kotlin"
  | .description _ | .property .. => false

namespace Declaration

/-- The tags that are selected, by source set and then in written order. -/
def tagged (selects : CommentTag → Bool) (declaration : Declaration) : List SourcedTag :=
  declaration.sourcedTags.filter (selects ·.tag)

/-- The tags of a comment that can describe the declaration. A property tag is behind any
description, and describes a property only. -/
def describingTags (declaration : Declaration) (comment : Comment) : List CommentTag :=
  comment.tags.filter CommentTag.isDescription ++
    match declaration with
    | .property _ => comment.tags.filter CommentTag.isProperty
    | _ => []

/-- The first tag of each source set that can describe the declaration. -/
def describedBy (declaration : Declaration) : List SourcedTag :=
  declaration.documentation.entries.flatMap fun (id, comment) =>
    (declaration.describingTags comment).head?.toList.map fun tag => { id, tag }

/-- The tags that the description shows, section by section. -/
def shownTags (declaration : Declaration) : List SourcedTag :=
  [declaration.tagged CommentTag.isDeprecated, declaration.describedBy,
    declaration.tagged CommentTag.isVersion, declaration.tagged Section.isReturn,
    declaration.tagged Section.isSince, declaration.tagged Section.isAuthor,
    declaration.tagged CommentTag.isParameter, declaration.tagged CommentTag.isReference,
    declaration.tagged CommentTag.isException, declaration.tagged CommentTag.isSample].flatten

theorem count_tagged (selects : CommentTag → Bool) (declaration : Declaration)
    (sourced : SourcedTag) :
    (declaration.tagged selects).count sourced =
      if selects sourced.tag then declaration.sourcedTags.count sourced else 0 := by
  split
  · rename_i selected
    exact List.count_filter selected
  · rename_i unselected
    exact List.count_eq_zero_of_not_mem fun isTagged =>
      unselected (List.mem_filter.mp isTagged).2

/-- Every tag of a kind that is shown belongs to one section, and to no other. -/
theorem shownTags_perm (declaration : Declaration) :
    declaration.shownTags.Perm
      (declaration.tagged CommentTag.isShown ++ declaration.describedBy) := by
  refine List.perm_iff_count.mpr fun sourced => ?_
  obtain ⟨id, tag⟩ := sourced
  simp only [shownTags, List.flatten_cons, List.flatten_nil, List.count_append, count_tagged]
  cases tag <;>
    simp [CommentTag.isShown, CommentTag.isDeprecated, CommentTag.isVersion, Section.isReturn,
      Section.isSince, Section.isAuthor, CommentTag.isParameter, CommentTag.isReference,
      CommentTag.isException, CommentTag.isSample, Nat.add_comm]

/-- What describes a declaration is shown without a title. -/
theorem untitled_of_mem_describingTags {declaration : Declaration} {comment : Comment}
    {tag : CommentTag} (describes : tag ∈ declaration.describingTags comment) :
    tag.shownText = tag.root.plainTextWith "" := by
  have plain : tag.isDescription ∨ tag.isProperty := by
    cases declaration <;> simp [describingTags] at describes <;> tauto
  cases tag <;> simp [CommentTag.isDescription, CommentTag.isProperty] at plain <;> rfl

theorem head?_describingTags (declaration : Declaration) (comment : Comment) :
    (declaration.describingTags comment).head? = declaration.describingTag? comment := by
  cases declaration <;>
    simp [describingTags, describingTag?, Comment.descriptionTag?, Comment.propertyTag?]

end Declaration

namespace Content

open Build

/-- A source set and a text that is shown for it. -/
structure Entry where
  id : SourceSetId
  text : String

namespace Node

/-- The entries that a node of a description holds: the rows of a table, nothing for a heading, and
any other node itself. -/
def entries : Node → List Node
  | .header .. => []
  | .table _ _ _ rows => rows
  | node => [node]

/-- All nodes of the trees have the source sets, and the trees have the text. -/
structure Reads (sourceSets : SourceSets) (text : String) (nodes : List Node) : Prop where
  sourceSets : ∀ part ∈ nodes.flatMap walk, part.sourceSets = sourceSets
  text : String.join (nodes.map textContent) = text

/-- The node is a group with the text of the entry, and everything in it is for the source set of
the entry alone. -/
structure IsEntry (entry : Entry) (node : Node) : Prop where
  isGroup : node.shape = .group
  reads : Reads (.singleton entry.id) entry.text [node]

variable {sourceSets : SourceSets} {text : String}

theorem reads_nil (sourceSets : SourceSets) : Reads sourceSets "" [] :=
  ⟨fun _ isPart => (List.not_mem_nil isPart).elim, rfl⟩

theorem Reads.append {nodes more : List Node} {early late : String}
    (readsEarly : Reads sourceSets early nodes) (readsLate : Reads sourceSets late more) :
    Reads sourceSets (early ++ late) (nodes ++ more) where
  sourceSets := by
    rw [List.flatMap_append]
    exact List.forall_mem_append.mpr ⟨readsEarly.sourceSets, readsLate.sourceSets⟩
  text := by rw [List.map_append, String.join_append, readsEarly.text, readsLate.text]

/-- A node around others reads as these do. -/
theorem Reads.wrap {nodes : List Node} (reads : Reads sourceSets text nodes) {node : Node}
    (around : node.children = nodes) (same : node.sourceSets = sourceSets)
    (noText : node.ownText = "") : Reads sourceSets text [node] where
  sourceSets := by
    rw [List.flatMap_singleton, walk_eq, around]
    exact List.forall_mem_cons.mpr ⟨same, reads.sourceSets⟩
  text := by
    rw [List.map_singleton, String.join_cons, textContent_eq_join noText, around, reads.text]
    exact String.append_empty

theorem Reads.isEntry {scope : Scope} {entry : Entry} {nodes : List Node}
    (reads : Reads scope.sourceSets entry.text nodes)
    (single : scope.sourceSets = .singleton entry.id) : IsEntry entry (.group scope nodes) :=
  ⟨rfl, (single ▸ reads).wrap rfl single rfl⟩

theorem reads_text (scope : Scope) (body : String) :
    Reads scope.sourceSets body [.text scope body] where
  sourceSets := List.forall_mem_singleton.mpr rfl
  text := by simp [textContent, walk, ownText]

theorem reads_ofMarkup (scope : Scope) (markup : Markup) :
    Reads scope.sourceSets (markup.plainTextWith "") (ofMarkup scope markup) where
  sourceSets _ := sourceSets_of_mem_walk
  text := join_textContent_ofMarkup scope markup

end Node

theorem Scope.sourceSets_override {scope : Scope} {overrides : Overrides} {sourceSets : SourceSets}
    (stated : overrides.sourceSets = some sourceSets) :
    (scope.override overrides).sourceSets = sourceSets := by
  rw [Scope.override, stated, Option.getD_some]

namespace Fragment

variable {α : Type}

/-! ## Texts -/

/-- In every scope the fragment makes nodes that have the source sets of the scope and the text. -/
def HasText (fragment : Fragment Build) (text : String) : Prop :=
  ∀ scope, Ensures (fun _ => True) (fragment scope) (Node.Reads scope.sourceSets text)

theorem HasText.append {first second : Fragment Build} {early late : String}
    (firstHas : first.HasText early) (secondHas : second.HasText late) :
    (first ++ second).HasText (early ++ late) := fun scope =>
  ensures_append (firstHas scope) (secondHas scope) fun _ _ => Node.Reads.append

theorem hasText_text (kind : Kind) (body : String) :
    (text kind body : Fragment Build).HasText body := fun scope =>
  ensures_pure (Node.reads_text (scope.withKind kind) body)

theorem hasText_styledText (kind : Kind) (styles : OrderedSet Style) (body : String) :
    (styledText kind styles body : Fragment Build).HasText body := fun scope =>
  ensures_pure (Node.reads_text { scope with kind, styles } body)

theorem hasText_comment (root : Markup) :
    (comment root : Fragment Build).HasText (root.plainTextWith "") := fun scope =>
  ensures_pure ((Node.reads_ofMarkup (scope.withKind .comment) root).wrap rfl rfl rfl)

theorem hasText_header (level : Nat) (title : String) (kind : Kind) :
    (header level title kind : Fragment Build).HasText title := by
  intro scope
  have inner : Ensures (fun _ => True) ((plainText title ++ empty : Fragment Build)
      (scope.override { kind := some kind })) (Node.Reads scope.sourceSets title) :=
    ensures_append (ensures_pure (Node.reads_text _ title)) (ensures_pure (Node.reads_nil _))
      fun _ _ early late => String.append_empty (s := title) ▸ early.append late
  exact inner.bind fun nodes reads => ensures_pure (reads.wrap rfl rfl rfl)

/-- A link that keeps the source sets of its scope has the text of what is in it. -/
theorem HasText.linkTo {body : Fragment Build} {text : String} {overrides : Overrides}
    (has : body.HasText text) (target : LinkTarget)
    (kept : overrides.sourceSets = none) :
    (Fragment.linkTo target overrides body).HasText text := by
  intro scope
  have same : (scope.override overrides).sourceSets = scope.sourceSets := by
    rw [Scope.override, kept, Option.getD_none]
  exact (has _).bind fun nodes reads => ensures_pure ((same ▸ reads).wrap rfl same rfl)

/-! ## Entries -/

/-- In every scope the fragment makes nodes that hold the entries one by one. -/
def Lists (fragment : Fragment Build) (entries : List Entry) : Prop :=
  ∀ scope, Ensures (fun _ => True) (fragment scope) fun nodes =>
    List.Forall₂ Node.IsEntry entries (nodes.flatMap Node.entries)

theorem lists_empty : (empty : Fragment Build).Lists [] := fun _ => ensures_pure .nil

theorem Lists.append {first second : Fragment Build} {early late : List Entry}
    (firstLists : first.Lists early) (secondLists : second.Lists late) :
    (first ++ second).Lists (early ++ late) := fun scope =>
  ensures_append (firstLists scope) (secondLists scope) fun nodes more areFirst areSecond => by
    rw [List.flatMap_append]
    exact List.rel_append areFirst areSecond

theorem lists_forEach {elements : List α} {fragment : α → Fragment Build}
    {entries : α → List Entry}
    (each : ∀ element ∈ elements, (fragment element).Lists (entries element)) :
    (forEach elements fragment).Lists (elements.flatMap entries) := by
  induction elements with
  | nil => exact lists_empty
  | cons head tail ih =>
      obtain ⟨headLists, tailList⟩ := List.forall_mem_cons.mp each
      exact headLists.append (ih tailList)

theorem lists_header (level : Nat) (title : String) (kind : Kind) :
    (header level title kind : Fragment Build).Lists [] := fun _ _ _ => ⟨.nil, trivial⟩

/-- A group for one source set is an entry. -/
theorem HasText.group {body : Fragment Build} {entry : Entry} {overrides : Overrides}
    (has : body.HasText entry.text) (single : overrides.sourceSets = some (.singleton entry.id)) :
    (Fragment.group overrides body).Lists [entry] := fun scope =>
  (has _).bind fun _ reads =>
    ensures_pure (.cons (reads.isEntry (scope.sourceSets_override single)) .nil)

/-- A table lists its rows. -/
theorem lists_table {elements : List α} {entry : α → Entry} {row : α → Row Build}
    (overrides : Overrides)
    (single : ∀ element, (row element).1.sourceSets = some (.singleton (entry element).id))
    (each : ∀ element, (row element).2.HasText (entry element).text) :
    (table overrides [] none (elements.map row)).Lists (elements.map entry) := by
  have made : ∀ element ∈ elements, ∀ scope, Ensures (fun _ => True)
      (makeGroup scope (row element).1 (row element).2) (Node.IsEntry (entry element)) :=
    fun element _ scope => (each element _).bind fun _ reads =>
      ensures_pure (reads.isEntry (Scope.sourceSets_override (single element)))
  refine fun scope => (ensures_plainTable made overrides scope).weaken ?_
  rintro _ ⟨_, _, _, rows, rfl, areRows⟩
  rw [List.flatMap_singleton, List.forall₂_map_left_iff]
  exact areRows

end Fragment

end Content

/-- What is shown for a tag. -/
def SourcedTag.entry (sourced : SourcedTag) : Content.Entry :=
  { id := sourced.id, text := sourced.tag.shownText }

/-- What is shown for a row of named tags. -/
def NamedTag.entry (row : NamedTag) : Content.Entry :=
  { id := row.id, text := row.name ++ row.root.plainTextWith "" }

/-! ## Sections -/

namespace Section

open Fragment

/-- A comment of a tag that has no title. -/
private theorem lists_sourcedComment (kind : Option Kind) (sourced : SourcedTag)
    (untitled : sourced.tag.shownText = sourced.tag.root.plainTextWith "") :
    (sourcedComment kind sourced.id sourced.tag.root).Lists [sourced.entry] := by
  have has : (Fragment.comment sourced.tag.root : Fragment Build).HasText sourced.entry.text := by
    rw [SourcedTag.entry, untitled]
    exact hasText_comment sourced.tag.root
  exact has.group rfl

/-- Each of the tags that are selected has an entry. -/
private theorem lists_forEach_selected {tags : List SourcedTag}
    {fragment : SourcedTag → Fragment Build} (selects : CommentTag → Bool)
    (each : ∀ sourced ∈ tags, (fragment sourced).Lists
      (if selects sourced.tag then [sourced.entry] else [])) :
    (forEach tags fragment).Lists ((tags.filter (selects ·.tag)).map SourcedTag.entry) := by
  have selected : (tags.filter (selects ·.tag)).map SourcedTag.entry =
      tags.flatMap fun sourced => if selects sourced.tag then [sourced.entry] else [] := by
    clear each
    induction tags with
    | nil => rfl
    | cons head tail ih =>
        rw [List.filter_cons, List.flatMap_cons, ← ih]
        split <;> rfl
  rw [selected]
  exact lists_forEach each

private theorem lists_deprecation (tags : List SourcedTag) :
    (deprecation tags).Lists
      ((tags.filter (CommentTag.isDeprecated ·.tag)).map SourcedTag.entry) := by
  refine lists_forEach_selected _ fun sourced _ => ?_
  obtain ⟨id, tag⟩ := sourced
  cases tag with
  | deprecated root =>
      exact ((hasText_header 3 "Deprecated" .deprecation).append (hasText_comment root)).group rfl
  | _ => exact lists_empty

private theorem lists_description (declaration : Declaration) :
    (description declaration).Lists (declaration.describedBy.map SourcedTag.entry) := by
  rw [Declaration.describedBy, List.map_flatMap]
  refine lists_forEach fun (id, comment) _ => ?_
  dsimp only
  rw [← declaration.head?_describingTags comment]
  cases first : (declaration.describingTags comment).head? with
  | none => exact lists_empty
  | some tag =>
      have untitled := Declaration.untitled_of_mem_describingTags (List.mem_of_mem_head? first)
      exact lists_sourcedComment none ⟨id, tag⟩ untitled

private theorem lists_versions (tags : List SourcedTag) :
    (customTags TagRenderer.description [.sinceKotlin] tags).Lists
      ((tags.filter (CommentTag.isVersion ·.tag)).map SourcedTag.entry) := by
  refine lists_forEach_selected _ fun sourced _ => ?_
  obtain ⟨id, tag⟩ := sourced
  cases tag with
  | custom name root =>
      have shown : (TagRenderer.sinceKotlin.description id name root).Lists
          [SourcedTag.entry ⟨id, .custom name root⟩] :=
        ((hasText_header 4 name .comment).append (hasText_comment root)).group rfl
      have each : ∀ renderer ∈ [TagRenderer.sinceKotlin].filter (·.applies name),
          (renderer.description id name root).Lists [SourcedTag.entry ⟨id, .custom name root⟩] := by
        intro renderer isApplied
        obtain rfl := List.mem_singleton.mp (List.mem_filter.mp isApplied).1
        exact shown
      have once : ([TagRenderer.sinceKotlin].filter (·.applies name)).flatMap
          (fun _ => [SourcedTag.entry ⟨id, .custom name root⟩]) =
            if CommentTag.isVersion (.custom name root) then
              [SourcedTag.entry ⟨id, .custom name root⟩]
            else [] := by
        rw [List.filter_singleton]
        cases isVersion : name == "Since Kotlin" <;>
          simp [TagRenderer.sinceKotlin, CommentTag.isVersion, isVersion]
      rw [← once]
      exact lists_forEach each
  | _ => exact lists_empty

private theorem lists_unnamedTags (selects : CommentTag → Bool)
    (untitled : ∀ tag, selects tag → tag.shownText = tag.root.plainTextWith "")
    (tags : List SourcedTag) :
    (unnamedTags selects tags).Lists ((tags.filter (selects ·.tag)).map SourcedTag.entry) := by
  have each : ∀ sourced ∈ tags.filter (selects ·.tag),
      (sourcedComment (some .comment) sourced.id sourced.tag.root).Lists [sourced.entry] :=
    fun sourced isSelected =>
      lists_sourcedComment _ sourced (untitled _ (List.mem_filter.mp isSelected).2)
  rw [unnamedTags]
  generalize tags.filter (selects ·.tag) = selected at each
  cases selected with
  | nil => exact lists_empty
  | cons first rest =>
      rw [List.map_eq_flatMap]
      exact (lists_header 4 _ .comment).append (lists_forEach each)

private theorem hasText_rowTitle (kind : Kind) (row : NamedTag) :
    (rowTitle kind row).HasText row.name := by
  rw [rowTitle]
  split
  · exact (hasText_text kind row.name).linkTo _ rfl
  · exact hasText_styledText kind _ row.name

private theorem lists_namedTable (title : String) (kind : Kind) (rows : List NamedTag) :
    (namedTable title kind rows).Lists (rows.map NamedTag.entry) := by
  rw [namedTable]
  cases rows with
  | nil => exact lists_empty
  | cons first rest =>
      refine (lists_header 4 title kind).append (lists_table _ (fun _ => rfl) fun row => ?_)
      exact (hasText_rowTitle kind row).append (hasText_comment row.root)

private theorem lists_rows (title : String) (kind : Kind) (row? : SourcedTag → Option NamedTag)
    (selects : CommentTag → Bool)
    (rows : ∀ id tag, (row? ⟨id, tag⟩).map NamedTag.entry =
      if selects tag then some (SourcedTag.entry ⟨id, tag⟩) else none) (tags : List SourcedTag) :
    (namedTable title kind (tags.filterMap row?)).Lists
      ((tags.filter (selects ·.tag)).map SourcedTag.entry) := by
  have listed := lists_namedTable title kind (tags.filterMap row?)
  rwa [map_filterMap_eq fun sourced => rows sourced.id sourced.tag] at listed

private theorem lists_samples (tags : List SourcedTag) :
    (samples tags).Lists ((tags.filter (CommentTag.isSample ·.tag)).map SourcedTag.entry) := by
  unfold samples
  extract_lets named
  have entries : named.map (fun sample => { id := sample.1, text := sample.2 }) =
      (tags.filter (CommentTag.isSample ·.tag)).map SourcedTag.entry := by
    refine map_filterMap_eq (fun sourced => ?_) tags
    obtain ⟨id, tag⟩ := sourced
    cases tag <;> rfl
  have each : (Fragment.forEach named fun sample =>
      Fragment.group
        { sourceSets := some (.singleton sample.1), kind := some .sample
          styles := some (.singleton .monospace) }
        (.text .sample sample.2)).Lists
          (named.flatMap fun sample => [{ id := sample.1, text := sample.2 }]) :=
    lists_forEach fun sample _ => (hasText_text .sample sample.2).group rfl
  rw [← entries, List.map_eq_flatMap]
  clear_value named
  cases named with
  | nil => exact lists_empty
  | cons first rest => exact (lists_header 4 "Samples" .sample).append each

/-- The description of a declaration lists what is shown for its tags. -/
theorem lists_descriptions (declaration : Declaration) :
    (descriptions [.sinceKotlin] declaration).Lists
      (declaration.shownTags.map SourcedTag.entry) := by
  let tags := declaration.sourcedTags
  have returns := lists_unnamedTags isReturn (fun | .returns _, _ => rfl) tags
  have releases := lists_unnamedTags isSince (fun | .since _, _ => rfl) tags
  have authors := lists_unnamedTags isAuthor (fun | .author _, _ => rfl) tags
  have parameters := lists_rows "Parameters" .parameters parameterRow? CommentTag.isParameter
    (fun _ tag => by cases tag <;> rfl) tags
  have references := lists_rows "See also" .comment referenceRow? CommentTag.isReference
    (fun _ tag => by cases tag <;> rfl) tags
  have exceptions := lists_rows "Throws" .comment exceptionRow? CommentTag.isException
    (fun _ tag => by cases tag <;> rfl) tags
  have listed := (lists_deprecation tags).append <| (lists_description declaration).append <|
    (lists_versions tags).append <| returns.append <| releases.append <| authors.append <|
    parameters.append <| references.append <| exceptions.append <| (lists_samples tags).append <|
    lists_empty
  simp only [Declaration.shownTags, List.flatten_cons, List.flatten_nil, List.map_append,
    List.map_nil]
  exact listed

end Section

namespace PageMaker

/-- A description holds one entry for each tag that it shows, section by section, and in a section
by source set and then in written order. The entry is for the source set of the tag alone and has
its text. Shown are all tags of some kinds, and in each source set the first tag that can describe
the declaration. -/
theorem entries_description (maker : PageMaker) (declaration : Declaration) (session : Session) :
    let nodes :=
      (({ maker with renderers := [.sinceKotlin] }.description declaration).run session).1
    List.Forall₂ (fun sourced => Node.IsEntry sourced.entry) declaration.shownTags
        (nodes.flatMap Node.entries) ∧
      declaration.shownTags.Perm
        (declaration.tagged CommentTag.isShown ++ declaration.describedBy) := by
  obtain ⟨listed, -⟩ := Section.lists_descriptions declaration
    { dris := .singleton declaration.dri, sourceSets := declaration.sourceSets } session trivial
  exact ⟨List.forall₂_map_left_iff.mp listed, declaration.shownTags_perm⟩

end PageMaker

end DocPages
