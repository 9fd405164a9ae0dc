import DocPages.Proofs.Collection.Sorting
import DocPages.Proofs.Content.Texts
import DocPages.Proofs.Signature.Links

/-!
# Outlines of content

Three things about a list of nodes decide whether what encloses it is covered: whether it has nodes,
which source sets these carry, and whether they are covered themselves. The outline of a fragment is
composed of those of its parts and depends on nothing else about the scope than its source sets.
-/

namespace DocPages

namespace Content

open Build Node

/-- No node of the tree claims a source set that none of its children carries. -/
def Node.IsCovered (node : Node) : Prop := ∀ part ∈ node.walk, ¬part.Overclaims

theorem Node.isCovered_iff {node : Node} :
    node.IsCovered ↔ ¬node.Overclaims ∧ ∀ child ∈ node.children, child.IsCovered := by
  simp only [IsCovered, walk_eq node, List.forall_mem_cons, List.forall_mem_flatMap]

/-- What matters about a list of nodes for the coverage of what encloses it. -/
@[ext]
structure Outline where
  /-- There is a node. -/
  shown : Prop
  /-- A node carries the source set. -/
  carries : SourceSetId → Prop
  /-- The trees of the nodes are covered. -/
  covered : Prop

namespace Outline

variable {α : Type}

/-- The outline of a list of nodes. -/
def ofNodes (nodes : List Node) : Outline where
  shown := nodes ≠ []
  carries id := ∃ node ∈ nodes, id ∈ node.sourceSets.toList
  covered := ∀ node ∈ nodes, node.IsCovered

/-- The outline of no nodes. -/
def empty : Outline := ⟨False, fun _ => False, True⟩

/-- The outline of the nodes of two outlines. -/
def append (left right : Outline) : Outline where
  shown := left.shown ∨ right.shown
  carries id := left.carries id ∨ right.carries id
  covered := left.covered ∧ right.covered

instance : Append Outline := ⟨append⟩

@[simp] theorem shown_append (left right : Outline) :
    (left ++ right).shown = (left.shown ∨ right.shown) := rfl

@[simp] theorem carries_append (left right : Outline) (id : SourceSetId) :
    (left ++ right).carries id = (left.carries id ∨ right.carries id) := rfl

@[simp] theorem covered_append (left right : Outline) :
    (left ++ right).covered = (left.covered ∧ right.covered) := rfl

/-- The outline of the nodes of all outlines in a list. -/
def concat (outlines : List Outline) : Outline where
  shown := ∃ outline ∈ outlines, outline.shown
  carries id := ∃ outline ∈ outlines, outline.carries id
  covered := ∀ outline ∈ outlines, outline.covered

/-- A covered node for each of some source sets. -/
def ofIds (ids : List SourceSetId) : Outline := ⟨ids ≠ [], (· ∈ ids), True⟩

/-- A node whose tree is covered on a condition. -/
def single (sourceSets : SourceSets) (covered : Prop) : Outline :=
  ⟨True, (· ∈ sourceSets.toList), covered⟩

/-- A covered node. -/
def leaf (sourceSets : SourceSets) : Outline := single sourceSets True

@[simp] theorem covered_empty : empty.covered = True := rfl

@[simp] theorem covered_ofIds (ids : List SourceSetId) : (ofIds ids).covered = True := rfl

@[simp] theorem covered_single (sourceSets : SourceSets) (covered : Prop) :
    (single sourceSets covered).covered = covered := rfl

@[simp] theorem covered_leaf (sourceSets : SourceSets) : (leaf sourceSets).covered = True := rfl

@[simp] theorem covered_concat_map {elements : List α} {outline : α → Outline} :
    (concat (elements.map outline)).covered = ∀ element ∈ elements, (outline element).covered := by
  simp [concat]

/-- A node around the nodes of an outline. -/
def wrap (sourceSets : SourceSets) (inner : Outline) : Outline :=
  single sourceSets
    ((inner.shown → ∀ id ∈ sourceSets.toList, inner.carries id) ∧ inner.covered)

/-! ## Nodes -/

@[simp] theorem ofNodes_nil : ofNodes [] = empty := by
  ext <;> simp [ofNodes, empty]

theorem ofNodes_append (left right : List Node) :
    ofNodes (left ++ right) = ofNodes left ++ ofNodes right := by
  ext <;> simp [ofNodes, or_and_right, exists_or, or_imp, forall_and]; tauto

/-- A node claims the source sets of its scope for its children. -/
theorem ofNodes_singleton (node : Node) :
    ofNodes [node] = (ofNodes node.children).wrap node.sourceSets := by
  have covered : node.IsCovered ↔ ((ofNodes node.children).wrap node.sourceSets).covered := by
    rw [isCovered_iff]
    refine and_congr_left fun _ => ?_
    simp [Overclaims, ofNodes]
  ext
  · simp [ofNodes, wrap, single]
  · simp [ofNodes, wrap, single]
  · simpa [ofNodes] using covered

@[simp] theorem covered_ofNodes_singleton (node : Node) :
    (ofNodes [node]).covered = node.IsCovered := by
  simp [ofNodes]

theorem ofNodes_of_forall₂ {nodes : List Node} {outlines : List Outline}
    (related : List.Forall₂ (fun node outline => ofNodes [node] = outline) nodes outlines) :
    ofNodes nodes = concat outlines := by
  induction related with
  | nil => ext <;> simp [ofNodes, concat]
  | @cons node outline nodes outlines same rest ih =>
      rw [← List.singleton_append, ofNodes_append, same, ih]
      ext <;> simp [concat]

/-! ## Composition -/

@[simp] theorem empty_append (outline : Outline) : empty ++ outline = outline := by
  ext <;> simp [empty]

@[simp] theorem append_empty (outline : Outline) : outline ++ empty = outline := by
  ext <;> simp [empty]

theorem append_assoc (first second third : Outline) :
    first ++ second ++ third = first ++ (second ++ third) := by
  ext <;> simp [or_assoc, and_assoc]

@[simp] theorem concat_nil : concat [] = empty := by
  ext <;> simp [concat, empty]

@[simp] theorem concat_cons (head : Outline) (tail : List Outline) :
    concat (head :: tail) = head ++ concat tail := by
  ext <;> simp [concat]

/-- The order of outlines does not matter. -/
theorem concat_congr {left right : List Outline}
    (same : ∀ outline, outline ∈ left ↔ outline ∈ right) : concat left = concat right := by
  ext <;> simp [concat, same]

@[simp] theorem ofIds_nil : ofIds [] = empty := by
  ext <;> simp [ofIds, empty]

theorem ofIds_append (left right : List SourceSetId) :
    ofIds left ++ ofIds right = ofIds (left ++ right) := by
  ext
  · simp [ofIds]
    tauto
  · simp [ofIds]
  · simp [ofIds]

theorem leaf_singleton (id : SourceSetId) : leaf (.singleton id) = ofIds [id] := by
  ext <;> simp [leaf, single, ofIds, OrderedSet.singleton]

/-- A node stands for one more source set each. -/
theorem concat_ofIds {elements : List α} (ids : α → List SourceSetId) :
    concat (elements.map fun element => ofIds (ids element)) = ofIds (elements.flatMap ids) := by
  induction elements with
  | nil => simp
  | cons head tail ih => rw [List.map_cons, concat_cons, ih, ofIds_append, List.flatMap_cons]

/-! ## Nodes around others -/

/-- A node is covered if its children are and carry its source sets. -/
theorem wrap_eq_single {sourceSets : SourceSets} {inner : Outline}
    (supported : inner.shown → ∀ id ∈ sourceSets.toList, inner.carries id) :
    inner.wrap sourceSets = single sourceSets inner.covered := by
  rw [wrap, eq_true supported, true_and]

@[simp] theorem wrap_empty (sourceSets : SourceSets) : empty.wrap sourceSets = leaf sourceSets :=
  wrap_eq_single False.elim

@[simp] theorem wrap_single (sourceSets : SourceSets) (covered : Prop) :
    (single sourceSets covered).wrap sourceSets = single sourceSets covered :=
  wrap_eq_single fun _ _ => id

@[simp] theorem wrap_leaf (sourceSets : SourceSets) :
    (leaf sourceSets).wrap sourceSets = leaf sourceSets := wrap_single sourceSets True

@[simp] theorem leaf_append_leaf (sourceSets : SourceSets) :
    leaf sourceSets ++ leaf sourceSets = leaf sourceSets := by
  ext <;> simp [leaf, single]

theorem wrap_ofIds {sourceSets : SourceSets} {ids : List SourceSetId}
    (carried : ∀ id ∈ sourceSets.toList, id ∈ ids) :
    (ofIds ids).wrap sourceSets = leaf sourceSets :=
  wrap_eq_single fun _ => carried

/-- A child with the source sets of a node covers them. -/
@[simp] theorem wrap_single_append (sourceSets : SourceSets) (covered : Prop) (others : Outline) :
    (single sourceSets covered ++ others).wrap sourceSets =
      single sourceSets (covered ∧ others.covered) :=
  wrap_eq_single fun _ _ => .inl

@[simp] theorem wrap_leaf_append (sourceSets : SourceSets) (others : Outline) :
    (leaf sourceSets ++ others).wrap sourceSets = single sourceSets others.covered := by
  simp [leaf]

/-- Children that all have the source sets of a node cover them. -/
theorem wrap_ofNodes_of_leaves {nodes : List Node} {sourceSets : SourceSets}
    (leaves : ∀ node ∈ nodes, ofNodes [node] = leaf sourceSets) :
    (ofNodes nodes).wrap sourceSets = leaf sourceSets := by
  have same : ofNodes nodes = concat (nodes.map fun _ => leaf sourceSets) :=
    ofNodes_of_forall₂ (List.forall₂_map_right_iff.mpr (List.forall₂_same.mpr leaves))
  rw [same]
  cases nodes with
  | nil => rw [List.map_nil, concat_nil, wrap_empty]
  | cons head tail =>
      rw [List.map_cons, concat_cons, wrap_leaf_append]
      simp [concat, leaf, single]

/-- A node whose children have its source sets and are covered is covered. -/
theorem ofNodes_eq_leaf {node : Node}
    (leaves : ∀ child ∈ node.children, ofNodes [child] = leaf node.sourceSets) :
    ofNodes [node] = leaf node.sourceSets := by
  rw [ofNodes_singleton, wrap_ofNodes_of_leaves leaves]

/-- A tree whose nodes all have the same source sets is covered. -/
theorem ofNodes_eq_leaf_of_walk {node : Node} {sourceSets : SourceSets}
    (same : ∀ part ∈ node.walk, part.sourceSets = sourceSets) :
    ofNodes [node] = leaf sourceSets := by
  have covered : node.IsCovered := coverageGaps_eq_nil_iff.mp (coverageGaps_eq_nil_of_walk same)
  have own : node.sourceSets = sourceSets := same node (walk_eq node ▸ List.mem_cons_self)
  ext <;> simp [ofNodes, leaf, single, own, covered]

end Outline

/-! ## Markup and signatures -/

/-- All nodes of a piece of markup are covered and have the source sets of the scope. -/
theorem ofNodes_of_mem_ofMarkup (scope : Scope) (markup : Markup) :
    ∀ node ∈ ofMarkup scope markup, Outline.ofNodes [node] = .leaf scope.sourceSets :=
  fun _ isNode => Outline.ofNodes_eq_leaf_of_walk fun _ isPart =>
    sourceSets_of_mem_walk (List.mem_flatMap_of_mem isNode isPart)

/-- A piece of a signature is covered and has the source sets of the scope. -/
private theorem ofNodes_toNode (scope : Scope) (piece : Signature.Piece) :
    Outline.ofNodes [piece.toNode scope] = .leaf scope.sourceSets := by
  cases piece with
  | text kind body | placeholder problem =>
      exact Outline.ofNodes_eq_leaf fun _ isChild => (List.not_mem_nil isChild).elim
  | link kind body dri =>
      refine Outline.ofNodes_eq_leaf fun child isChild => ?_
      obtain rfl := List.mem_singleton.mp isChild
      exact Outline.ofNodes_eq_leaf fun _ isChild => (List.not_mem_nil isChild).elim

/-- The signature of a declaration has a covered node for each source set that it is written for. -/
theorem ofNodes_nodesOf (declaration : Declaration) :
    Outline.ofNodes (Signature.nodesOf declaration) =
      .ofIds (Signature.writtenSourceSets declaration) := by
  have single (id : SourceSetId) :
      Outline.ofNodes [Signature.sourceSetNode declaration id] = .ofIds [id] := by
    rw [← Outline.leaf_singleton]
    refine Outline.ofNodes_eq_leaf (List.forall_mem_map.mpr fun piece _ => ?_)
    exact ofNodes_toNode _ piece
  have each := Outline.ofNodes_of_forall₂ (forall₂_map_map
    fun id (_ : id ∈ Signature.writtenSourceSets declaration) => single id)
  rw [Signature.nodesOf, each, Outline.concat_ofIds fun id => [id], List.flatMap_singleton']

/-- The source sets of a nested scope. -/
def Overrides.innerSourceSets (overrides : Overrides) (sourceSets : SourceSets) : SourceSets :=
  overrides.sourceSets.getD sourceSets

namespace Fragment

variable {invariant : Session → Prop} {α : Type}

/-- In every scope the fragment makes nodes of the outline, and it keeps the invariant of the
session. -/
def HasOutline (invariant : Session → Prop) (fragment : Fragment Build)
    (outline : SourceSets → Outline) : Prop :=
  ∀ scope, Ensures invariant (fragment scope) fun nodes =>
    Outline.ofNodes nodes = outline scope.sourceSets

theorem HasOutline.congr {fragment : Fragment Build} {outline other : SourceSets → Outline}
    (has : fragment.HasOutline invariant outline)
    (same : ∀ sourceSets, outline sourceSets = other sourceSets) :
    fragment.HasOutline invariant other := by
  obtain rfl : outline = other := funext same
  exact has

/-! ## Sequences -/

theorem hasOutline_empty : (empty : Fragment Build).HasOutline invariant fun _ => .empty :=
  fun _ => ensures_pure Outline.ofNodes_nil

theorem HasOutline.append {first second : Fragment Build}
    {firstOutline secondOutline : SourceSets → Outline}
    (firstHas : first.HasOutline invariant firstOutline)
    (secondHas : second.HasOutline invariant secondOutline) :
    (first ++ second).HasOutline invariant fun sourceSets =>
      firstOutline sourceSets ++ secondOutline sourceSets := fun scope =>
  (firstHas scope).bind fun nodes isFirst => (secondHas scope).bind fun more isSecond =>
    ensures_pure (by rw [Outline.ofNodes_append, isFirst, isSecond])

theorem hasOutline_forEach {elements : List α} {fragment : α → Fragment Build}
    {outline : α → SourceSets → Outline}
    (each : ∀ element ∈ elements, (fragment element).HasOutline invariant (outline element)) :
    (forEach elements fragment).HasOutline invariant fun sourceSets =>
      .concat (elements.map fun element => outline element sourceSets) := by
  induction elements with
  | nil => exact hasOutline_empty.congr fun _ => by simp
  | cons head tail ih =>
      obtain ⟨headHas, tailHas⟩ := List.forall_mem_cons.mp each
      exact (headHas.append (ih tailHas)).congr fun _ => by simp

theorem hasOutline_forSome {element : Option α} {fragment : α → Fragment Build}
    {outline : α → SourceSets → Outline}
    (each : ∀ present ∈ element, (fragment present).HasOutline invariant (outline present)) :
    (forSome element fragment).HasOutline invariant fun sourceSets =>
      .concat (element.toList.map fun present => outline present sourceSets) := by
  cases element with
  | none => exact hasOutline_empty.congr fun _ => by simp
  | some present => exact (each present rfl).congr fun _ => by simp

theorem HasOutline.onlyIf {fragment : Fragment Build} {outline : SourceSets → Outline}
    (condition : Bool) (has : fragment.HasOutline invariant outline) :
    (Fragment.onlyIf condition fragment).HasOutline invariant fun sourceSets =>
      if condition then outline sourceSets else .empty := by
  cases condition with
  | true => exact has
  | false => exact hasOutline_empty

/-! ## Nodes -/

theorem hasOutline_nodes (made : List Node) :
    (nodes made : Fragment Build).HasOutline invariant fun _ => .ofNodes made := fun _ =>
  ensures_pure rfl

/-- A node without children is covered. -/
private theorem hasOutline_leaf {make : Scope → Node}
    (noChildren : ∀ scope, (make scope).children = [])
    (sourceSets : ∀ scope, (make scope).sourceSets = scope.sourceSets) :
    HasOutline invariant (fun scope => pure [make scope]) Outline.leaf := fun scope =>
  ensures_pure (by
    rw [← sourceSets scope]
    exact Outline.ofNodes_eq_leaf fun child isChild => by simp [noChildren] at isChild)

theorem hasOutline_text (kind : Kind) (body : String) :
    (text kind body : Fragment Build).HasOutline invariant Outline.leaf :=
  hasOutline_leaf (fun _ => rfl) fun _ => rfl

theorem hasOutline_styledText (kind : Kind) (styles : OrderedSet Style) (body : String) :
    (styledText kind styles body : Fragment Build).HasOutline invariant Outline.leaf :=
  hasOutline_leaf (fun _ => rfl) fun _ => rfl

theorem hasOutline_plainText (body : String) :
    (plainText body : Fragment Build).HasOutline invariant Outline.leaf :=
  hasOutline_leaf (fun _ => rfl) fun _ => rfl

theorem hasOutline_comment (markup : Markup) :
    (comment markup : Fragment Build).HasOutline invariant Outline.leaf := fun scope =>
  ensures_pure (Outline.ofNodes_eq_leaf (ofNodes_of_mem_ofMarkup (scope.withKind .comment) markup))

private theorem ensures_wrapOutline {step : Build (List Node)} {outline : Outline}
    {sourceSets : SourceSets} {make : List Node → Node}
    (ensures : Ensures invariant step fun nodes => Outline.ofNodes nodes = outline)
    (wraps : ∀ nodes, Outline.ofNodes [make nodes] = (Outline.ofNodes nodes).wrap sourceSets) :
    Ensures invariant (do return [make (← step)]) fun nodes =>
      Outline.ofNodes nodes = outline.wrap sourceSets :=
  ensures.bind fun nodes same => ensures_pure (by rw [wraps, same])

theorem HasOutline.group {body : Fragment Build} {outline : SourceSets → Outline}
    (overrides : Overrides) (has : body.HasOutline invariant outline) :
    (Fragment.group overrides body).HasOutline invariant fun sourceSets =>
      (outline (overrides.innerSourceSets sourceSets)).wrap
        (overrides.innerSourceSets sourceSets) := fun _ =>
  ensures_wrapOutline (has _) fun _ => Outline.ofNodes_singleton _

theorem HasOutline.makeGroup {body : Fragment Build} {outline : SourceSets → Outline}
    (overrides : Overrides) (has : body.HasOutline invariant outline) (scope : Scope) :
    Ensures invariant (Fragment.makeGroup scope overrides body) fun node =>
      Outline.ofNodes [node] = (outline (overrides.innerSourceSets scope.sourceSets)).wrap
        (overrides.innerSourceSets scope.sourceSets) :=
  (has _).bind fun nodes same => ensures_pure (by
    rw [Outline.ofNodes_singleton, children, same]
    rfl)

theorem HasOutline.linkTo {body : Fragment Build} {outline : SourceSets → Outline}
    (target : LinkTarget) (overrides : Overrides) (has : body.HasOutline invariant outline) :
    (Fragment.linkTo target overrides body).HasOutline invariant fun sourceSets =>
      (outline (overrides.innerSourceSets sourceSets)).wrap
        (overrides.innerSourceSets sourceSets) := fun _ =>
  ensures_wrapOutline (has _) fun _ => Outline.ofNodes_singleton _

theorem hasOutline_link (body : String) (dri : Dri) (kind : Kind) :
    (link body dri kind : Fragment Build).HasOutline invariant Outline.leaf :=
  ((hasOutline_plainText body).linkTo _ _).congr fun sourceSets => Outline.wrap_leaf sourceSets

/-- A heading of its title alone is covered by the title. -/
theorem hasOutline_headerWith (level : Nat) (title : String) (overrides : Overrides) :
    (headerWith level title overrides empty : Fragment Build).HasOutline invariant fun sourceSets =>
      .leaf (overrides.innerSourceSets sourceSets) := by
  have inner : (plainText title ++ empty : Fragment Build).HasOutline invariant Outline.leaf :=
    ((hasOutline_plainText title).append hasOutline_empty).congr fun _ => Outline.append_empty _
  exact fun scope => (ensures_wrapOutline (inner _) fun _ => Outline.ofNodes_singleton _).weaken
    fun _ same => same.trans (Outline.wrap_leaf _)

theorem hasOutline_header (level : Nat) (title : String) (kind : Kind) :
    (header level title kind : Fragment Build).HasOutline invariant Outline.leaf :=
  hasOutline_headerWith level title _

theorem hasOutline_cover (title : String) :
    (cover title : Fragment Build).HasOutline invariant Outline.leaf := fun scope =>
  hasOutline_headerWith 1 title _ scope

theorem HasOutline.platformHinted {body : Fragment Build} {outline : SourceSets → Outline}
    (overrides : Overrides) (has : body.HasOutline invariant outline) :
    (Fragment.platformHinted overrides body).HasOutline invariant fun sourceSets =>
      (outline (overrides.innerSourceSets sourceSets)).wrap
        (overrides.innerSourceSets sourceSets) := by
  refine fun scope => ensures_wrapOutline (has _) fun nodes => ?_
  rw [Outline.ofNodes_singleton, children, Outline.ofNodes_singleton]
  exact Outline.wrap_single _ _

/-- The signature of a declaration, cached or not, has a covered node for each source set of it. -/
theorem hasOutline_signature {declaration : Declaration} (shown : declaration.hasSignature) :
    (signature declaration).HasOutline Session.IsSound fun _ =>
      .ofIds declaration.sourceSets.toList := by
  refine fun scope => (ensures_keyedSignature declaration).weaken fun nodes keyed => ?_
  obtain ⟨other, sameKey, rfl⟩ := keyed
  rw [ofNodes_nodesOf, Declaration.writtenSourceSets_eq_of_key sameKey,
    Declaration.writtenSourceSets_eq shown]

/-! ## Variants -/

end Fragment

/-- In every scope the variant makes a node of the outline, and it keeps the invariant of the
session. -/
def Variant.HasOutline (invariant : Session → Prop) (variant : Variant Build) (outline : Outline) :
    Prop :=
  ∀ scope, Ensures invariant (Fragment.makeVariant scope variant) fun node =>
    Outline.ofNodes [node] = outline

/-- In every scope the row makes a node of the outline, and it keeps the invariant of the
session. -/
def Row.HasOutline (invariant : Session → Prop) (row : Row Build) (outline : Outline) : Prop :=
  ∀ scope, Ensures invariant (Fragment.makeGroup scope row.1 row.2) fun node =>
    Outline.ofNodes [node] = outline

theorem Row.HasOutline.congr {invariant : Session → Prop} {row : Row Build}
    {outline other : Outline} (has : Row.HasOutline invariant row outline)
    (same : outline = other) : Row.HasOutline invariant row other := same ▸ has

namespace Fragment

variable {invariant : Session → Prop} {α : Type}

private theorem ensures_partOutline {overrides : Overrides} {body : Fragment Build}
    {outline : SourceSets → Outline} (inherits : overrides.sourceSets = none)
    (has : body.HasOutline invariant outline) (scope : Scope) :
    Ensures invariant (makePart scope (some (overrides, body))) fun part =>
      Outline.ofNodes part.toList = (outline scope.sourceSets).wrap scope.sourceSets := by
  have same : (scope.override overrides).sourceSets = scope.sourceSets := by
    simp [Scope.override, inherits]
  refine (has _).bind fun nodes isOutline => ensures_pure ?_
  rw [Option.toList_some, Outline.ofNodes_singleton]
  change (Outline.ofNodes nodes).wrap (scope.override overrides).sourceSets = _
  rw [isOutline, same]

/-- A variant is covered if the source sets of each of its parts are. -/
theorem hasOutline_variant {dris : OrderedSet Dri} {sourceSets : SourceSets}
    {extras : Extras Declaration} {divergentOverrides afterOverrides : Overrides}
    {divergent after : Fragment Build} {divergentOutline afterOutline : SourceSets → Outline}
    (divergentInherits : divergentOverrides.sourceSets = none)
    (afterInherits : afterOverrides.sourceSets = none)
    (divergentHas : divergent.HasOutline invariant divergentOutline)
    (afterHas : after.HasOutline invariant afterOutline) :
    Variant.HasOutline invariant
      { dris, sourceSets, extras, divergent := some (divergentOverrides, divergent)
        after := some (afterOverrides, after) }
      (.single sourceSets
        (((divergentOutline sourceSets).wrap sourceSets).covered ∧
          ((afterOutline sourceSets).wrap sourceSets).covered)) := by
  intro scope
  have before : ∀ inner, Ensures invariant (makePart inner none) fun part => part = none :=
    fun _ => ensures_pure rfl
  refine (before _).bind fun first isNone => ?_
  refine (ensures_partOutline divergentInherits divergentHas _).bind fun second isSecond => ?_
  refine (ensures_partOutline afterInherits afterHas _).bind fun third isThird => ensures_pure ?_
  subst isNone
  rw [Outline.ofNodes_singleton, children, Option.toList_none, List.nil_append,
    Outline.ofNodes_append, isSecond, isThird]
  exact Outline.wrap_single_append _ _ _

/-- A row is covered if the source sets that it states are. -/
theorem hasOutline_row {overrides : Overrides} {body : Fragment Build} {sourceSets : SourceSets}
    {outline : SourceSets → Outline} (stated : overrides.sourceSets = some sourceSets)
    (has : body.HasOutline invariant outline) :
    Row.HasOutline invariant (overrides, body) ((outline sourceSets).wrap sourceSets) := by
  intro scope
  have made := has.makeGroup overrides scope
  rwa [Overrides.innerSourceSets, stated, Option.getD_some] at made

/-- The outlines of nodes that are made one by one. -/
private theorem ensures_concat {elements : List α} {outlines : List Outline}
    {step : α → Build Node}
    (each : List.Forall₂ (fun element outline =>
      Ensures invariant (step element) fun node => Outline.ofNodes [node] = outline)
        elements outlines) :
    Ensures invariant (elements.mapM step) fun nodes =>
      Outline.ofNodes nodes = .concat outlines := by
  induction each with
  | nil => exact ensures_pure (by simp)
  | cons head _ ih =>
      rw [List.mapM_cons]
      refine head.bind fun node isNode => ih.bind fun nodes areNodes => ensures_pure ?_
      rw [← List.singleton_append, Outline.ofNodes_append, isNode, areNodes, Outline.concat_cons]

/-- A group of variants has the source sets of the variants, so that they cover it. -/
theorem hasOutline_divergentGroup {variants : List (Variant Build)} {outlines : List Outline}
    (groupId : String) (overrides : Overrides) (hinted : Bool)
    (each : List.Forall₂ (Variant.HasOutline invariant) variants outlines) :
    (divergentGroup groupId overrides hinted variants).HasOutline invariant fun _ =>
      { Outline.concat outlines with shown := True } := by
  intro scope
  refine (ensures_concat (each.imp fun _ _ has => has (scope.override overrides))).bind
    fun instances same => ensures_pure ?_
  rw [Outline.ofNodes_singleton, children, ← same]
  ext <;> simp [Outline.wrap, Outline.single, Outline.ofNodes, sourceSets, Node.scope]

/-! ## Tables -/

/-- A table of titles and rows. -/
theorem hasOutline_table {titles : List (Fragment Build)} {rows : List (Row Build)}
    {outlines : List Outline} (overrides : Overrides)
    (titlesHave : ∀ title ∈ titles, title.HasOutline invariant Outline.leaf)
    (rowsHave : List.Forall₂ (Row.HasOutline invariant) rows outlines) :
    (table overrides titles none rows).HasOutline invariant fun sourceSets =>
      (.concat (titles.map fun _ => .leaf (overrides.innerSourceSets sourceSets)) ++
        .concat outlines : Outline).wrap (overrides.innerSourceSets sourceSets) := by
  intro scope
  have titlesMade : Ensures invariant (titles.mapM (makeGroup (scope.override overrides) {}))
      fun nodes => Outline.ofNodes nodes = .concat (titles.map fun _ =>
        .leaf (overrides.innerSourceSets scope.sourceSets)) := by
    refine ensures_concat (List.forall₂_map_right_iff.mpr (List.forall₂_same.mpr ?_))
    intro title member
    exact ((titlesHave title member).makeGroup {} _).weaken fun _ same =>
      same.trans (Outline.wrap_leaf _)
  refine titlesMade.bind fun titleNodes areTitles => ?_
  have noCaption : Ensures invariant (makePart (scope.override overrides) none) (· = none) :=
    ensures_pure rfl
  refine noCaption.bind fun caption isNone => ?_
  refine (ensures_concat (rowsHave.imp fun _ _ has => has (scope.override overrides))).bind
    fun rowNodes areRows => ensures_pure ?_
  subst isNone
  rw [Outline.ofNodes_singleton, children, Option.toList_none, List.nil_append,
    Outline.ofNodes_append, areTitles, areRows]
  rfl

/-- A heading and a table of rows, or nothing without rows. -/
theorem hasOutline_titledRows {rows : List (Row Build)} {outlines : List Outline} (title : String)
    (level : Nat) (kind : Kind) (settings : BlockSettings)
    (each : List.Forall₂ (Row.HasOutline invariant) rows outlines) :
    (titledRows title level kind settings rows).HasOutline invariant fun sourceSets =>
      if outlines = [] then .empty
      else .leaf sourceSets ++ (Outline.concat outlines).wrap settings.sourceSets := by
  refine (((hasOutline_header level title kind).append
    (hasOutline_table _ (fun _ member => (List.not_mem_nil member).elim) each)).onlyIf _).congr
      fun sourceSets => ?_
  cases each with
  | nil => rfl
  | cons => simp [Overrides.innerSourceSets]

/-- Rows have one outline, in whatever order the elements stand. -/
private theorem hasOutline_orderedRows {elements : List α} {row : α → Row Build}
    {outline : α → Outline} (title : String) (level : Nat) (kind : Kind) (settings : BlockSettings)
    (compare : α → α → Ordering)
    (each : ∀ element ∈ elements, Row.HasOutline invariant (row element) (outline element)) :
    (titledRows title level kind settings
      ((if settings.sorted then sortBy compare elements else elements).map row)).HasOutline
        invariant fun sourceSets =>
          if elements = [] then .empty
          else .leaf sourceSets ++
            (Outline.concat (elements.map outline)).wrap settings.sourceSets := by
  have sameElements : (if settings.sorted then sortBy compare elements else elements).Perm
      elements := by
    split
    · exact sortBy_perm compare elements
    · exact .refl elements
  generalize (if settings.sorted then sortBy compare elements else elements) = ordered
    at sameElements
  have rows : List.Forall₂ (Row.HasOutline invariant) (ordered.map row) (ordered.map outline) :=
    forall₂_map_map fun element member => each element (sameElements.mem_iff.mp member)
  refine (hasOutline_titledRows title level kind settings rows).congr fun sourceSets => ?_
  have sameOutlines : Outline.concat (ordered.map outline) = .concat (elements.map outline) :=
    Outline.concat_congr fun _ => (sameElements.map outline).mem_iff
  have sameEmpty : ordered.map outline = [] ↔ elements = [] := by
    rw [List.map_eq_nil_iff, ← List.length_eq_zero_iff, sameElements.length_eq,
      List.length_eq_zero_iff]
  rw [sameOutlines]
  exact if_congr sameEmpty rfl rfl

theorem hasOutline_block {elements : List α} {subject : α → RowSubject} {body : α → Fragment Build}
    {outline : α → SourceSets → Outline} (title : String) (level : Nat) (kind : Kind)
    (settings : BlockSettings)
    (each : ∀ element ∈ elements, (body element).HasOutline invariant (outline element)) :
    (block title level kind elements subject settings body).HasOutline invariant fun sourceSets =>
      if elements = [] then .empty
      else .leaf sourceSets ++
        (Outline.concat (elements.map fun element =>
          (outline element (subject element).sourceSets).wrap
            (subject element).sourceSets)).wrap settings.sourceSets :=
  hasOutline_orderedRows title level kind settings _ fun element member =>
    hasOutline_row rfl (each element member)

theorem hasOutline_multiBlock {groups : List (String × List α)} {subject : α → RowSubject}
    {body : String → List α → Fragment Build} {outline : String × List α → SourceSets → Outline}
    (title : String) (level : Nat) (kind : Kind) (settings : BlockSettings)
    (each : ∀ group ∈ groups, (body group.1 group.2).HasOutline invariant (outline group)) :
    (multiBlock title level kind groups subject settings body).HasOutline invariant
      fun sourceSets =>
        if groups = [] then .empty
        else .leaf sourceSets ++
          (Outline.concat (groups.map fun group =>
            let rowSourceSets : SourceSets :=
              .ofList (group.2.flatMap fun element => (subject element).sourceSets.toList)
            (outline group rowSourceSets).wrap rowSourceSets)).wrap settings.sourceSets :=
  hasOutline_orderedRows title level kind settings _ fun group member =>
    hasOutline_row (congrArg (some ∘ OrderedSet.ofList) (List.flatMap_map ..)) (each group member)

end Fragment

end Content

end DocPages
