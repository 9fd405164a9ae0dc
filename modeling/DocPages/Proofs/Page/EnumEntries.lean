import DocPages.Proofs.Page.AllTypes
import DocPages.Proofs.Page.ListedMembers

/-!
# Entries of an enum class

The page of an enum class shows its entries twice: in the rows of a table, and as the last pages
below it. Entries that names and identities tell apart stand in both places one by one, in the order
in which they are declared, whether or not variants are merged.
-/

namespace DocPages

open Content Declaration Build

namespace Content

namespace Node

/-- The rows of a section, if it has the title. -/
def rowsOfSection (title : String) (content : Node) : List Node :=
  if content.sectionTitle? = some title then content.listedRows else []

/-- The rows that the tabs of a page list under a title. -/
def rowsUnder (title : String) (content : Node) : List Node :=
  content.tabs.flatMap (rowsOfSection title)

/-- The text that a row starts with. -/
def rowTitle (row : Node) : String := (row.children.head?.map textContent).getD ""

/-- The row starts with a link to the declaration by its name. -/
structure ListsEntry (entry : Declaration) (row : Node) : Prop where
  title : row.rowTitle = entry.nameAfterClash
  leading : row.leadingDri? = some entry.dri

end Node

/-! ## Sections with rows -/

/-- A section with rows lists them under its title, and nothing under another. -/
theorem ensures_rowsOfSection {α : Type} {elements : List α} {row : α → Row Build}
    {shown : α → Node → Prop}
    (each : ∀ element ∈ elements, ∀ scope, Ensures (fun _ => True)
      (Fragment.makeGroup scope (row element).1 (row element).2) (shown element))
    (dris : OrderedSet Dri) (sourceSets : SourceSets) (title : String) (level : Nat) (kind : Kind)
    (settings : BlockSettings) :
    Ensures (fun _ => True)
      (makeContent dris sourceSets
        (.titledRows title level kind settings (elements.map row)))
      fun content => List.Forall₂ shown elements (content.rowsOfSection title) ∧
        ∀ other, other ≠ title → content.rowsOfSection other = [] := by
  refine (Fragment.ensures_titledRows each title level kind settings _).bind
    fun nodes ⟨titled, rows⟩ => ensures_pure ?_
  by_cases empty : elements = []
  · subst empty
    have noRows : ∀ own, (Node.group own nodes).listedRows = [] :=
      fun _ => List.forall₂_nil_left_iff.mp rows
    simp [Node.rowsOfSection, noRows]
  · have sectionTitle : ∀ own, (Node.group own nodes).sectionTitle? = some title :=
      fun _ => titled empty
    refine ⟨?_, fun other isOther => ?_⟩
    · rw [Node.rowsOfSection, if_pos (sectionTitle _)]
      exact rows
    · rw [Node.rowsOfSection, sectionTitle, if_neg (by simpa using isOther.symm)]

end Content

/-! ## Tabs of enum classes -/

namespace Declaration

/-- Declarations of different names are in groups of their own. -/
theorem namedGroups_eq_singletons {declarations : List Declaration}
    (apart : (declarations.map name?).Nodup) :
    namedGroups declarations =
      declarations.map fun declaration => (declaration.nameAfterClash, [declaration]) := by
  rw [namedGroups, groupByFirstSeen_eq_singletons apart, List.map_map]
  rfl

end Declaration

namespace PageMaker

variable (maker : PageMaker)

/-- The constructors are under a title of their own. -/
private theorem ensures_constructorRows (constructors : List Declaration) :
    Ensures (fun _ => True) (constructorsContent constructors) fun content =>
      ∀ title, title ≠ "Constructors" → content.rowsOfSection title = [] := by
  have anyRow : ∀ row : String × List Declaration → Row Build,
      ∀ group ∈ sortBy (fun left right => compareAlphabetically left.1 right.1)
        (namedGroups constructors), ∀ scope,
          Ensures (fun _ => True) (Fragment.makeGroup scope (row group).1 (row group).2)
            fun _ => True :=
    fun _ _ _ _ => ensures_true _
  exact (ensures_rowsOfSection (anyRow _) _ _ _ _ _ _).weaken fun _ rows => rows.2

/-- Entries of different names are listed in order. -/
private theorem ensures_entryRows {entries : List Declaration}
    (apart : (entries.map name?).Nodup) :
    Ensures (fun _ => True) (entriesContent entries) fun content =>
      List.Forall₂ Node.ListsEntry entries (content.rowsOfSection "Entries") := by
  rw [entriesContent, namedGroups_eq_singletons apart, Fragment.multiBlock,
    if_neg Bool.false_ne_true, List.map_map]
  refine (ensures_rowsOfSection (fun entry _ inner => ?_) _ _ _ _ _ _).weaken fun _ rows => rows.1
  refine (Fragment.ensures_linkedRow entry.nameAfterClash entry.dri _ _ inner).weaken ?_
  rintro row ⟨-, outer, text, leading⟩
  refine ⟨?_, congrArg (Option.bind · Node.linkedDri?) leading⟩
  rw [Node.rowTitle, leading, Option.map_some, Option.getD_some, Node.textContent, Node.walk_eq]
  simp [Node.walk_eq, Node.children, Node.ownText]

/-- The listings of a scope have titles below the content only. -/
private theorem ensures_scopeRows (dris : OrderedSet Dri) (sourceSets : SourceSets)
    (extensions : List Declaration) (members : Members) :
    Ensures (fun _ => True) (maker.scopeContent dris sourceSets extensions members)
      fun content => ∀ title, content.rowsOfSection title = [] := by
  -- Each heading stands in a group of its own, so that the content itself starts with none.
  have untitled : ∀ (listing : Listing) inner, Ensures (fun _ => True)
      (listing.fragment maker.renderers inner) fun nodes =>
        ∀ node ∈ nodes, node.headingTitle? = none := by
    intro listing inner
    rw [Listing.fragment, Fragment.onlyIf]
    split
    · exact (ensures_true _).bind fun nodes _ =>
        ensures_pure (by simp [Node.headingTitle?, Node.shape])
    · exact ensures_pure (by simp)
  have body : ∀ listings inner, Ensures (fun _ => True)
      (Fragment.forEach listings (Listing.fragment maker.renderers) inner) fun nodes =>
        ∀ node ∈ nodes, node.headingTitle? = none := by
    intro listings inner
    induction listings with
    | nil => exact ensures_pure (by simp)
    | cons listing rest ih =>
        exact Fragment.ensures_append (untitled listing inner) ih fun nodes more isFirst isSecond =>
          List.forall_mem_append.mpr ⟨isFirst, isSecond⟩
  refine (body _ _).bind fun nodes untitled => ensures_pure fun title => if_neg fun isTitle => ?_
  obtain ⟨node, isNode, isHeading⟩ := Option.bind_eq_some_iff.mp isTitle
  simp [untitled node (List.mem_of_head? isNode)] at isHeading

/-- A property of the declarations and the rows of their content also holds if there are neither. -/
private theorem ensures_rowsOf_contentOf? {content : List Declaration → Build Node}
    {declarations : List Declaration} (title : String)
    (property : List Declaration → List Node → Prop) (empty : property [] [])
    (made : Ensures (fun _ => True) (content declarations) fun content =>
      property declarations (content.rowsOfSection title)) :
    Ensures (fun _ => True) (contentOf? content declarations) fun part? =>
      property declarations (part?.toList.flatMap (Node.rowsOfSection title)) := by
  cases declarations with
  | nil => exact ensures_pure empty
  | cons first rest =>
      refine Ensures.map (made.weaken fun content holds => ?_)
      simpa using holds

/-- The page of types lists the entries of its enum classes in order, if names tell them apart. -/
private theorem ensures_typesEntries (extensions group : List Declaration)
    (apart : ((group.flatMap listedEntries).map name?).Nodup) :
    Ensures (fun _ => True) (maker.typesContent extensions group) fun content =>
      List.Forall₂ Node.ListsEntry (group.flatMap listedEntries) (content.rowsUnder "Entries") := by
  refine (maker.ensures_scopeRows _ _ _ _).bind fun scope noScopeRows => ?_
  have constructors := ensures_rowsOf_contentOf? "Entries" (fun _ rows => rows = []) rfl
    ((ensures_constructorRows (shownConstructors group)).weaken fun content noRows =>
      noRows "Entries" (by decide))
  have entries := ensures_rowsOf_contentOf? "Entries" (List.Forall₂ Node.ListsEntry) .nil
    (ensures_entryRows apart)
  refine constructors.bind fun constructors noRows => entries.bind fun entries rows => ?_
  refine (ensures_true _).bind fun described _ => ?_
  refine (ensures_tabs _ _ _ _ _).weaken fun content tabs => ?_
  rw [Node.rowsUnder, tabs]
  simpa [noScopeRows, noRows] using rows

/-- The page of an enum class lists its entries in order, if their names differ. -/
private theorem ensures_enumEntries {decl : ClasslikeDecl} (isEnum : decl.kind = .enumKind)
    (names : (decl.entries.map fun entry => entry.common.name).Nodup) :
    EnsuresUnlessFailed (fun _ => True) (maker.content (.classlikes [.classlike decl]))
      fun content => List.Forall₂ Node.ListsEntry (decl.entries.map .enumEntry)
        (content.rowsUnder "Entries") := by
  have listed : [Declaration.classlike decl].flatMap listedEntries =
      decl.entries.map .enumEntry := by
    simp [listedEntries, isEnum]
  have apart : (([Declaration.classlike decl].flatMap listedEntries).map name?).Nodup := by
    rw [listed, List.map_map]
    exact names
  rw [← listed]
  exact (ensuresUnlessFailed_true _).bind fun extensions _ =>
    (maker.ensures_typesEntries extensions _ apart).lift

end PageMaker

/-! ## Pages below an enum class -/

/-- Types, functions and properties are no enum entries. -/
private theorem Declaration.isEnumEntry_eq_false {declaration : Declaration}
    (isOther : (declaration.isClasslike ∨ declaration.isTypeAlias) ∨
      declaration.isFunction ∨ declaration.isProperty) : declaration.isEnumEntry = false := by
  cases declaration with
  | enumEntry decl => rcases isOther with (other | other) | other | other <;> cases other
  | module | package | classlike | typeAlias | function | property => rfl

namespace Arrangement

variable (arrangement : Arrangement)

/-- The pages of the types, functions and properties of a scope are for no enum entries. -/
private theorem isEnumEntry_of_mem_scopeSubjects {declarations : List Declaration}
    {placed : Subject}
    (isPlaced : placed ∈ arrangement.scopeSubjects (.ofDeclarations declarations))
    {declaration : Declaration} (member : declaration ∈ placed.declarations) :
    declaration.isEnumEntry = false := by
  have inherited : ∀ {sibling : Declaration}, sibling.unrenamed = declaration.unrenamed →
      sibling.isEnumEntry = false → declaration.isEnumEntry = false := by
    intro sibling same noEntry
    rwa [← isEnumEntry_unrenamed, ← same, isEnumEntry_unrenamed]
  have ofMembers : ∀ {siblings : List Declaration} {group : List Declaration},
      (∀ sibling ∈ siblings, sibling.isEnumEntry = false) →
        group ∈ arrangement.groups (siblings.filter fun sibling => !sibling.isInherited) →
          declaration ∈ group → declaration.isEnumEntry = false := by
    intro siblings group noEntries isGroup inGroup
    obtain ⟨sibling, isSibling, same⟩ := arrangement.exists_sibling_of_mem_groups isGroup inGroup
    exact inherited same (noEntries sibling (List.mem_filter.mp isSibling).1)
  simp only [scopeSubjects, memberSubjects, List.mem_append, List.mem_map] at isPlaced
  rcases isPlaced with (⟨group, isGroup, rfl⟩ | ⟨group, isGroup, rfl⟩) | ⟨group, isGroup, rfl⟩
  · obtain ⟨type, isType, same⟩ := arrangement.exists_sibling_of_mem_typeGroups isGroup member
    obtain ⟨holder, -, held⟩ := List.mem_flatMap.mp isType
    have kind := isClasslike_or_isTypeAlias_of_mem_memberTypes held
    exact inherited same (isEnumEntry_eq_false (.inl kind))
  · refine ofMembers (fun function isMember => isEnumEntry_eq_false ?_) isGroup member
    exact .inr (.inl (CallableKind.function.includes_of_mem_flatMap isMember))
  · refine ofMembers (fun property isMember => isEnumEntry_eq_false ?_) isGroup member
    exact .inr (.inr (CallableKind.property.includes_of_mem_flatMap isMember))

/-- The pages of the entries of an enum class are the last ones below it, in order and one for each
entry, if their identities differ even without the extra mark. -/
private theorem exists_below_enum (decl : ClasslikeDecl)
    (dris : (decl.entries.map fun entry => entry.common.dri.withoutExtra).Nodup) :
    ∃ others, arrangement.below (.classlikes [.classlike decl]) =
        others ++ decl.entries.map (fun entry => .enumEntries [.enumEntry entry]) ∧
      ∀ placed ∈ others, ∀ declaration ∈ placed.declarations,
        declaration.isEnumEntry = false := by
  have groups : arrangement.groups (decl.entries.map .enumEntry) =
      (decl.entries.map .enumEntry).map fun entry => [entry] := by
    refine arrangement.groups_eq_singletons ?_
    rw [List.map_map]
    exact dris
  refine ⟨(shownConstructors [.classlike decl]).map (fun constructor => .members [constructor]) ++
    arrangement.scopeSubjects (.ofDeclarations [.classlike decl]), ?_, ?_⟩
  · have entries : [Declaration.classlike decl].flatMap enumEntries =
        decl.entries.map .enumEntry := List.flatMap_singleton ..
    show _ ++ _ ++ (arrangement.groups ([Declaration.classlike decl].flatMap enumEntries)).map _ = _
    rw [entries, groups, List.map_map, List.map_map]
    rfl
  · intro placed isPlaced declaration member
    rcases List.mem_append.mp isPlaced with isConstructor | inScope
    · obtain ⟨constructor, isShown, rfl⟩ := List.mem_map.mp isConstructor
      obtain rfl := List.mem_singleton.mp member
      obtain ⟨type, -, isOwn⟩ := exists_of_mem_shownConstructors isShown
      exact isEnumEntry_eq_false (.inr (.inl (isFunction_of_mem_constructors isOwn)))
    · exact arrangement.isEnumEntry_of_mem_scopeSubjects inScope member

/-- A page has the name and the declarations of what it is for. -/
private theorem Arranges.page_eq {shown : Subject → Node → Prop} {subject : Subject} {page : Page}
    (arranged : arrangement.Arranges shown subject page) :
    page.name = subject.name ∧ page.declarations = subject.declarations := by
  cases arranged
  exact ⟨rfl, rfl⟩

end Arrangement

/-- The name of an enum entry as pages show it. -/
def EnumEntryDecl.shownName (entry : EnumEntryDecl) : String := entry.common.name.getD ""

/-- An entry that nothing renames keeps its declared name. -/
private theorem EnumEntryDecl.nameAfterClash_eq {entry : EnumEntryDecl}
    (unmarked : entry.common.extras.clashAwareName = none) :
    (Declaration.enumEntry entry).nameAfterClash = entry.shownName := by
  show (entry.common.extras.clashAwareName.or entry.common.name).getD "" = _
  rw [unmarked, Option.none_or]
  rfl

/-- The last pages are for the enum entries one by one, and no other one is for an enum entry. -/
inductive Page.EndWithEntries (entries : List EnumEntryDecl) : List Page → Prop
  | intro {others entryPages : List Page}
      (noEntries : ∀ other ∈ others, ∀ declaration ∈ other.declarations,
        declaration.isEnumEntry = false)
      (declarations : entryPages.map Page.declarations =
        entries.map fun entry => [.enumEntry entry])
      (names : entryPages.map Page.name = entries.map EnumEntryDecl.shownName) :
      EndWithEntries entries (others ++ entryPages)

namespace Arrangement

variable {arrangement : Arrangement} {decl : ClasslikeDecl}

/-- The pages below an arranged page of an enum class end with those of its entries. -/
private theorem Arranges.endWithEntries
    (unmarked : ∀ entry ∈ decl.entries, entry.common.extras.clashAwareName = none)
    (dris : (decl.entries.map fun entry => entry.common.dri.withoutExtra).Nodup)
    {shown : Subject → Node → Prop} {page : Page}
    (arranged : arrangement.Arranges shown (.classlikes [.classlike decl]) page) :
    Page.EndWithEntries decl.entries page.children := by
  obtain ⟨others, below, noEntries⟩ := arrangement.exists_below_enum decl dris
  cases arranged with
  | @page _ content children holds placed =>
      -- The children are cut where the subjects below the page are.
      rw [below] at placed
      have otherPages := List.forall₂_take_append _ _ _ placed.flip
      have entryPages := (List.forall₂_drop_append _ _ _ placed.flip).flip
      rw [List.forall₂_map_left_iff] at entryPages
      show Page.EndWithEntries decl.entries children
      rw [← List.take_append_drop others.length children]
      refine .intro (fun other isOther => ?_) ?_ ?_
      · obtain ⟨subject, isPlaced, otherArranged⟩ := exists_related_of_mem otherPages isOther
        rw [otherArranged.page_eq.2]
        exact noEntries subject isPlaced
      · exact map_eq_map_of_forall₂ (entryPages.imp fun entry _ arranged => arranged.page_eq.2)
      · have unmarkedPages := (List.forall₂_and_left _ _).mpr ⟨unmarked, entryPages⟩
        refine map_eq_map_of_forall₂ (unmarkedPages.imp ?_)
        exact fun entry _ ⟨unmarked, arranged⟩ =>
          arranged.page_eq.1.trans (EnumEntryDecl.nameAfterClash_eq unmarked)

end Arrangement

namespace PageMaker

/-- The page of an enum class ends with the pages of its entries, and its table lists them, all in
the order of declaration. It is enough that nothing renames the entries, and that their names differ
and their identities do so even without the extra mark. -/
theorem endWithEntries_of_build {maker : PageMaker} {decl : ClasslikeDecl}
    (isEnum : decl.kind = .enumKind)
    (unmarked : ∀ entry ∈ decl.entries, entry.common.extras.clashAwareName = none)
    (names : (decl.entries.map fun entry => entry.common.name).Nodup)
    (dris : (decl.entries.map fun entry => entry.common.dri.withoutExtra).Nodup)
    {session after : Session} {page : Page}
    (success : (maker.build (.classlikes [.classlike decl])).run.run session =
      (.ok page, after)) :
    Page.EndWithEntries decl.entries page.children ∧
      (page.content.rowsUnder "Entries").map Node.rowTitle =
        decl.entries.map EnumEntryDecl.shownName ∧
      (page.content.rowsUnder "Entries").map Node.leadingDri? =
        decl.entries.map fun entry => some entry.common.dri := by
  let subject : Subject := .classlikes [.classlike decl]
  let shown : Subject → Node → Prop := fun placed content => placed = subject →
    List.Forall₂ Node.ListsEntry (decl.entries.map .enumEntry) (content.rowsUnder "Entries")
  have content : ∀ placed, EnsuresUnlessFailed (fun _ => True) (maker.content placed)
      (shown placed) := by
    intro placed
    by_cases same : placed = subject
    · subst same
      exact (maker.ensures_enumEntries isEnum names).weaken fun _ lists _ made _ => lists _ made
    · exact (ensuresUnlessFailed_true _).weaken fun _ _ _ _ isSame => (same isSame).elim
  have uniform := haveDri_singleton (.classlike decl)
  have hasDri : subject.HasDri (Declaration.classlike decl).dri :=
    ⟨uniform.toList_drisOf, uniform.same⟩
  have built := (maker.ensures_arranges (fun _ _ _ _ => trivial) (fun placed _ => content placed)
    hasDri trivial session trivial).1
  rw [success] at built
  have arranged := built page rfl
  refine ⟨arranged.endWithEntries unmarked dris, ?_⟩
  cases arranged with
  | page holds _ =>
      have rows := List.forall₂_map_left_iff.mp (holds rfl)
      have unmarkedRows := (List.forall₂_and_left _ _).mpr ⟨unmarked, rows⟩
      refine ⟨map_eq_map_of_forall₂ (unmarkedRows.imp ?_),
        map_eq_map_of_forall₂ (rows.imp fun entry row lists => lists.leading)⟩
      exact fun entry row ⟨unmarked, lists⟩ =>
        lists.title.trans (EnumEntryDecl.nameAfterClash_eq unmarked)

/-- An enum class with a constructor and three entries that are not in alphabetical order. -/
def tides : ClasslikeDecl :=
  let named := fun (name : String) (dri : Dri) =>
    ({ dri, name := some name, sourceSets := .singleton ⟨"shores", "jvm"⟩ } : Common)
  { common := named "Tide" (.ofClass "shores" "Tide")
    kind := .enumKind
    constructors :=
      [{ common := named "Tide"
          { Dri.ofClass "shores" "Tide" with callable := some { name := "Tide" } }
         isConstructor := true }]
    entries := ["Spring", "Neap", "Ebb"].map fun name =>
      { common := named name (.ofClass "shores" ("Tide." ++ name)) } }

/-- A maker of pages that lists nothing apart and tells clashing names apart. -/
def telling : PageMaker where
  settings := {}
  registry := .ofList []

theorem endWithEntries_of_build_tides :
    (∀ entry ∈ tides.entries, entry.common.extras.clashAwareName = none) ∧
      (tides.entries.map fun entry => entry.common.name).Nodup ∧
      (tides.entries.map fun entry => entry.common.dri.withoutExtra).Nodup ∧
      ∃ page after, (telling.build (.classlikes [.classlike tides])).run.run {} =
          (.ok page, after) ∧
        Page.EndWithEntries tides.entries page.children ∧
        (page.content.rowsUnder "Entries").map Node.rowTitle = ["Spring", "Neap", "Ebb"] := by
  have unmarked : ∀ entry ∈ tides.entries, entry.common.extras.clashAwareName = none := by
    decide +kernel
  have names : (tides.entries.map fun entry => entry.common.name).Nodup := by decide +kernel
  have dris : (tides.entries.map fun entry => entry.common.dri.withoutExtra).Nodup := by
    decide +kernel
  have succeeds :
      ((telling.build (.classlikes [.classlike tides])).run.run {}).1.toOption.isSome := by
    decide +kernel
  cases run : (telling.build (.classlikes [.classlike tides])).run.run {} with
  | mk result after =>
      rw [run] at succeeds
      cases result with
      | error failure => exact nomatch succeeds
      | ok page =>
          obtain ⟨pages, titles, -⟩ := endWithEntries_of_build rfl unmarked names dris run
          exact ⟨unmarked, names, dris, page, after, rfl, pages, titles⟩

end PageMaker

end DocPages
