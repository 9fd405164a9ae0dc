import DocPages.Page.Pass
import DocPages.Proofs.Content.Retouching
import DocPages.Proofs.Page.Walk

/-!
# What passes do to nodes

A pass retouches the nodes of a page in a way that depends on the depth of the page alone, and
changes nothing else about the page. Variants keep their place under every pass, so that the nodes
in their parts are changed one by one, and the coverage of source sets stays as it was.
-/

namespace DocPages

open Content

namespace Pass

/-- What a pass makes of a node of a page at a depth, given what it makes of the children. -/
def change (depth : Nat) : Pass → Node → Node
  | .briefBlocks, node => if node.shape = .group then blockBrief node else node
  | .pathToRoot pattern rootPath, node => substitutePath pattern (pathFrom rootPath depth) node
  | .coverageCheck, node => node

/-- What a sequence of passes makes of a tree of nodes on a page at a depth. -/
def finish (passes : List Pass) (depth : Nat) (node : Node) : Node :=
  passes.foldl (fun node pass => node.mapAll (pass.change depth)) node

theorem change_briefBlocks_group (depth : Nat) (scope : Scope) (children : List Node) :
    briefBlocks.change depth (.group scope children) =
      .group
        (if scope.kind = .briefComment then { scope with styles := scope.styles.insert .block }
          else scope)
        children := by
  by_cases isBrief : scope.kind = .briefComment <;>
    simp [change, Node.shape, blockBrief, Node.kind, Node.scope, Node.addStyle, Node.mapScope,
      isBrief]

/-- A pass retouches a node if anything. -/
theorem retouches_change (pass : Pass) (depth : Nat) (node : Node) :
    node.RetouchedHere (pass.change depth node) := by
  cases pass with
  | briefBlocks =>
      cases node with
      | group scope children =>
          rw [change_briefBlocks_group]
          split
          · rename_i isBrief
            exact .briefComment isBrief children
          · exact .kept _
      | _ => exact .kept _
  | pathToRoot pattern rootPath =>
      cases node with
      | text scope body => exact .text scope body _
      | link scope target children =>
          cases target with
          | declaration dri => exact .kept _
          | address url => exact .address scope url _ children
      | _ => exact .kept _
  | coverageCheck => exact .kept node

/-- What a pass makes of a node does not depend on its children. -/
theorem ignoresChildren_change (pass : Pass) (depth : Nat) :
    Node.IgnoresChildren (pass.change depth) := by
  intro inner node
  cases pass with
  | briefBlocks =>
      cases node with
      | group scope children =>
          simp only [Node.mapChildren, change_briefBlocks_group]
      | _ => rfl
  | pathToRoot pattern rootPath =>
      cases node with
      | link scope target children => cases target <;> rfl
      | _ => rfl
  | coverageCheck => rfl

/-- No pass changes the form of a node or its children, and variants stay as they are. -/
theorem keepsVariants_change (pass : Pass) (depth : Nat) :
    Node.KeepsVariants (pass.change depth) :=
  Node.keepsVariants_of_retouches (pass.retouches_change depth)

/-- A sequence of passes goes through the nodes of a tree in one go. -/
theorem finish_eq_mapAll (passes : List Pass) (depth : Nat) (node : Node) :
    finish passes depth node =
      node.mapAll fun node => passes.foldl (fun node pass => pass.change depth node) node := by
  induction passes generalizing node with
  | nil => exact (Node.mapAll_eq_self (fun _ => rfl) node).symm
  | cons pass passes ih =>
      exact (ih (node.mapAll (pass.change depth))).trans
        (Node.mapAll_mapAll _ (pass.ignoresChildren_change depth) node)

/-- A sequence of passes retouches a node if anything. -/
theorem retouches_foldl (passes : List Pass) (depth : Nat) (node : Node) :
    node.RetouchedHere (passes.foldl (fun node pass => pass.change depth node) node) := by
  induction passes generalizing node with
  | nil => exact .kept node
  | cons pass passes ih => exact (pass.retouches_change depth node).trans (ih _)

/-- A sequence of passes retouches a tree. -/
theorem retouched_finish (passes : List Pass) (depth : Nat) (node : Node) :
    node.Retouched (finish passes depth node) := by
  rw [finish_eq_mapAll]
  exact Node.retouched_mapAll (retouches_foldl passes depth) node

/-- The nodes of a tree have the gaps of coverage that they had before the passes. -/
theorem coverageGaps_finish (passes : List Pass) (depth : Nat) (node : Node) :
    (finish passes depth node).coverageGaps = node.coverageGaps := by
  induction passes generalizing node with
  | nil => rfl
  | cons pass passes ih =>
      exact (ih _).trans (Node.coverageGaps_mapAll (pass.retouches_change depth) node)

/-- A pass changes the content of every page node by node. -/
theorem apply_eq_changeContents (pass : Pass) (page : Page) :
    pass.apply page = page.changeContents (fun depth => Node.mapAll (pass.change depth)) 0 := by
  cases pass with
  | briefBlocks => rfl
  | pathToRoot pattern rootPath => rfl
  | coverageCheck =>
      exact (Page.changeContents_eq_self (fun _ => Node.mapAll_eq_self fun _ => rfl) 0 page).symm

/-- The tree after a sequence of passes has the changed contents. -/
theorem applyAll_fst_eq (passes : List Pass) (page : Page) :
    (applyAll passes page).1 = page.changeContents (finish passes) 0 := by
  rw [applyAll]
  generalize ([] : List Problem) = reported
  induction passes generalizing page reported with
  | nil => exact (Page.changeContents_eq_self (fun _ _ => rfl) 0 page).symm
  | cons pass passes ih =>
      rw [List.foldl_cons, ih, apply_eq_changeContents, Page.changeContents_changeContents]
      rfl

/-- The pages of a tree after a sequence of passes have the changed contents and nothing else
changed. -/
theorem exists_of_mem_walk_applyAll {passes : List Pass} {page : Page} {placed : Nat × Page}
    (member : placed ∈ (applyAll passes page).1.walk) :
    ∃ original, (placed.1, original) ∈ page.walk ∧ placed.2.kind = original.kind ∧
      placed.2.declarations = original.declarations ∧
        placed.2.content = finish passes placed.1 original.content := by
  rw [applyAll_fst_eq, Page.walk, Page.changeContents, Page.walkFrom_mapFrom] at member
  obtain ⟨⟨depth, original⟩, inPage, rfl⟩ := List.mem_map.mp member
  rw [Page.mapFrom_eq]
  exact ⟨original, inPage, rfl, rfl, rfl⟩

/-- The check for coverage is the last standard pass and the only one that reports anything, so that
what it reports is about the finished tree. -/
theorem problems_applyAll_standard (page : Page) :
    (applyAll standard page).2 = coverageCheck.problems (applyAll standard page).1 := rfl

/-- The nodes in distinguishing parts go through the passes one by one. -/
theorem variantParts_finish (passes : List Pass) (depth : Nat) (content : Node) :
    (finish passes depth content).variantParts =
      content.variantParts.map (List.map (finish passes depth)) := by
  induction passes generalizing content with
  | nil =>
      rw [show finish [] depth = id from rfl]
      simp
  | cons pass passes ih =>
      change (finish passes depth (content.mapAll (pass.change depth))).variantParts = _
      rw [ih, (keepsVariants_change pass depth).variantParts_mapAll, List.map_map]
      simp only [Function.comp_def, List.map_map]
      rfl

end Pass

end DocPages
