import DocPages.Content.Fragment
import DocPages.Proofs.Collection.Comparison
import DocPages.Proofs.Collection.Sorting

/-!
# Blocks of rows

A block is a heading and a table with a row for every element, or nothing if there are no elements.
The rows stand in the order of the elements or of their names, and each is made in its turn, in a
scope that states what the row is for. Whatever making a row does is done once and in the order of
the rows.
-/

namespace DocPages

namespace Content

variable {α : Type}

/-! ## Order of rows -/

/-- The names are in alphabetical order, or the second one is absent. -/
inductive NamesInOrder : Option String → Option String → Prop
  | named {left right : String} (inOrder : (compareAlphabetically left right).isLE) :
      NamesInOrder (some left) (some right)
  | unnamed (left : Option String) : NamesInOrder left none

theorem namesInOrder_of_isLE {left right : Option String}
    (notAbove : (compareAbsentLast compareAlphabetically left right).isLE) :
    NamesInOrder left right := by
  cases right with
  | none => exact .unnamed left
  | some right =>
      cases left with
      | none => cases notAbove
      | some left => exact .named notAbove

/-- The elements in the order of their names, those of one name in the order in which they were
given. -/
structure SortedByName (name : α → Option String) (elements ordered : List α) : Prop where
  perm : ordered.Perm elements
  ascending : ordered.Pairwise fun first second => NamesInOrder (name first) (name second)
  stable : ∀ shared, ordered.filter (name · = shared) = elements.filter (name · = shared)

/-- Elements by name, those without one last. -/
def compareNames (name : α → Option String) (left right : α) : Ordering :=
  compareAbsentLast compareAlphabetically (name left) (name right)

theorem compareNames_eq_iff {name : α → Option String} {left right : α} :
    compareNames name left right = .eq ↔ name right = name left := by
  rw [compareNames, Std.LawfulEqCmp.compare_eq_iff_eq, eq_comm]

theorem sortedByName_sortBy (name : α → Option String) (elements : List α) :
    SortedByName name elements (sortBy (compareNames name) elements) := by
  have laws : Std.TransCmp (compareNames name) := transCmp_on inferInstance name
  have ascending : (sortBy (compareNames name) elements).Pairwise fun first second =>
      (compareNames name first second).isLE :=
    ascending_sortBy elements
  refine ⟨sortBy_perm _ elements, ascending.imp namesInOrder_of_isLE, fun shared => ?_⟩
  by_cases used : ∃ value ∈ elements, name value = shared
  · obtain ⟨value, -, rfl⟩ := used
    have kept : (sortBy (compareNames name) elements).filter (compareNames name value · = .eq) =
        elements.filter (compareNames name value · = .eq) :=
      filter_sortBy value elements
    simpa only [compareNames_eq_iff] using kept
  · -- The comparison only reaches names that some element has.
    have unused : ∀ list : List α, list.Perm elements → list.filter (name · = shared) = [] := by
      intro list perm
      refine List.filter_eq_nil_iff.mpr fun value member => ?_
      simpa using fun same => used ⟨value, perm.mem_iff.mp member, same⟩
    rw [unused _ (sortBy_perm _ elements), unused elements (.refl _)]

/-- The elements in the order of their rows. -/
def InRowOrder (settings : BlockSettings) (name : α → Option String) (elements ordered : List α) :
    Prop :=
  if settings.sorted then SortedByName name elements ordered else ordered = elements

theorem InRowOrder.perm {settings : BlockSettings} {name : α → Option String}
    {elements ordered : List α} (order : InRowOrder settings name elements ordered) :
    ordered.Perm elements := by
  unfold InRowOrder at order
  split at order
  · exact order.perm
  · exact .of_eq order

theorem inRowOrder_ite (settings : BlockSettings) (name : α → Option String) (elements : List α) :
    InRowOrder settings name elements
      (if settings.sorted then sortBy (compareNames name) elements else elements) := by
  unfold InRowOrder
  split
  · exact sortedByName_sortBy name elements
  · rfl

/-! ## Rows in their turn -/

/-- The scope of the table of a block. -/
def tableScope (scope : Scope) (kind : Kind) (settings : BlockSettings) : Scope :=
  { scope with kind, sourceSets := settings.sourceSets, extras := settings.extras }

/-- A heading and a table of rows are the heading of the title and the table of the nodes of the
rows, which are all that is made. -/
theorem titledRows_apply {m : Type → Type} [Monad m] [LawfulMonad m] (title : String) (level : Nat)
    (kind : Kind) (settings : BlockSettings) {rows : List (Row m)} (filled : rows ≠ [])
    (scope : Scope) :
    Fragment.titledRows title level kind settings rows scope =
      (fun nodes =>
        [.header (scope.withKind kind) level [.text (scope.withKind kind) title],
          .table (tableScope scope kind settings) none [] nodes]) <$>
        rows.mapM fun row =>
          Fragment.makeGroup (tableScope scope kind settings) row.1 row.2 := by
  have isFilled : rows.isEmpty = false := by simpa using filled
  rw [Fragment.titledRows, isFilled]
  show Fragment.append (Fragment.header level title kind) (Fragment.table _ [] none rows) scope = _
  simp only [Fragment.append, Fragment.header, Fragment.headerWith, Fragment.plainText,
    Fragment.empty, Fragment.table, Fragment.makePart, Option.map_none, List.mapM_nil, pure_bind,
    bind_pure, bind_pure_comp, map_pure, Functor.map_map, List.append_nil, List.cons_append,
    List.nil_append]
  -- Overriding the parts of the scope one by one leaves the scope of the heading and of the table.
  rfl

section

variable {σ : Type}

/-- Rows are made one after another. The content of each is made once, in the scope of the row and
from the state that making the row before has left. -/
inductive MakesRows (own : α → Scope) (body : α → Fragment (StateM σ)) :
    σ → List α → List Node → σ → Prop
  | done (state : σ) : MakesRows own body state [] [] state
  | row {state next final : σ} {element : α} {rest : List α} {children rows : List Node}
      (made : (body element (own element)).run state = (children, next))
      (others : MakesRows own body next rest rows final) :
      MakesRows own body state (element :: rest) (.group (own element) children :: rows) final

theorem makesRows_mapM (own : α → Scope) (body : α → Fragment (StateM σ)) (elements : List α)
    (state : σ) :
    let made := (elements.mapM fun element =>
      return Node.group (own element) (← body element (own element))).run state
    MakesRows own body state elements made.1 made.2 := by
  induction elements generalizing state with
  | nil => exact .done state
  | cons head tail ih =>
      rw [List.mapM_cons]
      exact .row rfl (ih ((body head (own head)).run state).2)

/-- A block makes nothing of no elements. Of others, it makes a heading of its title and a table of
their rows. -/
inductive MakesBlock (title : String) (level : Nat) (kind : Kind) (settings : BlockSettings)
    (scope : Scope) (name : α → Option String) (own : α → Scope)
    (body : α → Fragment (StateM σ)) : List α → σ → List Node × σ → Prop
  | empty (state : σ) :
      MakesBlock title level kind settings scope name own body [] state ([], state)
  | filled {elements ordered : List α} {rows : List Node} {state final : σ}
      (nonempty : elements ≠ []) (order : InRowOrder settings name elements ordered)
      (made : MakesRows own body state ordered rows final) :
      MakesBlock title level kind settings scope name own body elements state
        ([.header (scope.withKind kind) level [.text (scope.withKind kind) title],
          .table (tableScope scope kind settings) none [] rows], final)

private theorem makesBlock_titledRows {title : String} {level : Nat} {kind : Kind}
    {settings : BlockSettings} {scope : Scope} {name : α → Option String}
    {body : α → Fragment (StateM σ)} {elements ordered : List α} (overrides : α → Overrides)
    (order : InRowOrder settings name elements ordered) (state : σ) :
    MakesBlock title level kind settings scope name
      (fun element => (tableScope scope kind settings).override (overrides element)) body elements
      state
      ((Fragment.titledRows title level kind settings
        (ordered.map fun element => (overrides element, body element)) scope).run state) := by
  by_cases empty : elements = []
  · subst empty
    rw [order.perm.eq_nil]
    exact .empty state
  · have filled : ordered.map (fun element => (overrides element, body element)) ≠ [] := by
      intro none
      have unordered : ordered = [] := by simpa using none
      exact empty (order.perm.symm.trans (.of_eq unordered)).eq_nil
    rw [titledRows_apply title level kind settings filled scope, List.mapM_map]
    exact .filled empty order (makesRows_mapM _ body ordered state)

/-- The scope of a row of a block. It says what the row is for, and keeps the styles around it. -/
def rowScope (scope : Scope) (kind : Kind) (settings : BlockSettings) (dris : OrderedSet Dri)
    (sourceSets : SourceSets) (name : Option String) : Scope :=
  { scope with dris, sourceSets, kind, extras := settings.rowExtras name kind }

/-- The scope of the row of an element. -/
def elementScope (scope : Scope) (kind : Kind) (settings : BlockSettings) (subject : RowSubject) :
    Scope :=
  rowScope scope kind settings (.singleton subject.dri) subject.sourceSets subject.name

/-- The scope of the row of a named group of elements. -/
def groupScope (scope : Scope) (kind : Kind) (settings : BlockSettings) (name : String)
    (subjects : List RowSubject) : Scope :=
  rowScope scope kind settings (.ofList (subjects.map RowSubject.dri))
    (.ofList (subjects.flatMap fun subject => subject.sourceSets.toList)) (some name)

theorem mem_dris_groupScope (scope : Scope) (kind : Kind) (settings : BlockSettings) (name : String)
    (subject : α → RowSubject) {elements : List α} {dri : Dri} :
    dri ∈ (groupScope scope kind settings name (elements.map subject)).dris.toList ↔
      ∃ element ∈ elements, (subject element).dri = dri := by
  simp [groupScope, rowScope]

theorem mem_sourceSets_groupScope (scope : Scope) (kind : Kind) (settings : BlockSettings)
    (name : String) (subject : α → RowSubject) {elements : List α} {sourceSet : SourceSetId} :
    sourceSet ∈ (groupScope scope kind settings name (elements.map subject)).sourceSets.toList ↔
      ∃ element ∈ elements, sourceSet ∈ (subject element).sourceSets.toList := by
  simp only [groupScope, rowScope, OrderedSet.mem_ofList, List.flatMap_map, List.mem_flatMap]

/-- Blocks make a row for every element or named group of elements, in the order of the input or of
the names, and make its content once and in its turn. The row of a group is for the declarations of
all its elements and has all their source sets. -/
theorem makesBlock_block (title : String) (level : Nat) (kind : Kind) (settings : BlockSettings)
    (subject : α → RowSubject) (scope : Scope) (state : σ) :
    (∀ (elements : List α) (body : α → Fragment (StateM σ)),
      MakesBlock title level kind settings scope (fun element => (subject element).name)
        (fun element => elementScope scope kind settings (subject element)) body elements state
        ((Fragment.block title level kind elements subject settings body scope).run state)) ∧
    (∀ (groups : List (String × List α)) (body : String → List α → Fragment (StateM σ)),
      MakesBlock title level kind settings scope (fun group => some group.1)
        (fun group => groupScope scope kind settings group.1 (group.2.map subject))
        (fun group => body group.1 group.2) groups state
        ((Fragment.multiBlock title level kind groups subject settings body scope).run state)) ∧
    ∀ (name : String) (elements : List α),
      (∀ dri, dri ∈ (groupScope scope kind settings name (elements.map subject)).dris.toList ↔
        ∃ element ∈ elements, (subject element).dri = dri) ∧
      ∀ sourceSet,
        sourceSet ∈ (groupScope scope kind settings name
          (elements.map subject)).sourceSets.toList ↔
          ∃ element ∈ elements, sourceSet ∈ (subject element).sourceSets.toList := by
  refine ⟨fun elements body => ?_, fun groups body => ?_, fun name elements =>
    ⟨fun dri => mem_dris_groupScope scope kind settings name subject,
      fun sourceSet => mem_sourceSets_groupScope scope kind settings name subject⟩⟩
  · exact makesBlock_titledRows
      (fun element =>
        let described := subject element
        { dris := some (.singleton described.dri), sourceSets := some described.sourceSets
          kind := some kind, extras := some (settings.rowExtras described.name kind) })
      (inRowOrder_ite settings (fun element => (subject element).name) elements) state
  · exact makesBlock_titledRows
      (fun group =>
        let described := group.2.map subject
        { dris := some (.ofList (described.map RowSubject.dri))
          sourceSets := some (.ofList (described.flatMap fun subject => subject.sourceSets.toList))
          kind := some kind, extras := some (settings.rowExtras (some group.1) kind) })
      (inRowOrder_ite settings (fun group => some group.1) groups) state

end

end Content

end DocPages
