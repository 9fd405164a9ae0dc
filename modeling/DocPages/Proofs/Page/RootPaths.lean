import DocPages.Proofs.Page.PassLaws

/-!
# Paths to the root page

What the pass for the path to the root page does to a tree: in every text and every address, the
occurrences of the pattern from the left give way to the path that leads from the depth of the page
to the root, and all else stays. The path has no character of the pattern, so the pattern is gone
from the tree, and the pass changes nothing the second time.
-/

namespace DocPages

open Content

namespace Content.Node

/-! ## Nodes -/

/-- What is written in the node itself and may hold a pattern: the body of a text, or the address of
a link. -/
def writing? : Node → Option String
  | .text _ body => some body
  | .link _ (.address url) _ => some url
  | _ => none

/-- What becomes of a node itself when a path stands in for a pattern. -/
inductive SubstitutedHere (pattern path : String) : Node → Node → Prop
  | text (scope : Scope) {body result : String}
      (replaced : Text.Replaced pattern.toList path.toList body.toList result.toList) :
      SubstitutedHere pattern path (.text scope body) (.text scope result)
  | address (scope : Scope) {url result : String} (children : List Node)
      (replaced : Text.Replaced pattern.toList path.toList url.toList result.toList) :
      SubstitutedHere pattern path (.link scope (.address url) children)
        (.link scope (.address result) children)
  | kept {node : Node} (plain : node.writing? = none) : SubstitutedHere pattern path node node

/-- What becomes of a tree: paths stand in for the pattern in the children, which keep their places,
and then in the node itself. -/
inductive Substituted (pattern path : String) : Node → Node → Prop
  | intro {before middle after : Node} (inPlace : middle.frame = before.frame)
      (children : List.Forall₂ (Substituted pattern path) before.children middle.children)
      (here : middle.SubstitutedHere pattern path after) : Substituted pattern path before after

variable {pattern path : String}

theorem substitutedHere_substitutePath (nonempty : pattern ≠ "") (node : Node) :
    node.SubstitutedHere pattern path (Pass.substitutePath pattern path node) := by
  have replaced : ∀ text, Text.Replaced pattern.toList path.toList text.toList
      (Text.replace pattern path text).toList := fun text =>
    (Text.replace_eq_iff_replaced nonempty).mp rfl
  cases node with
  | text scope body => exact .text scope (replaced body)
  | link scope target children =>
      cases target with
      | address url => exact .address scope children (replaced url)
      | declaration dri => exact .kept rfl
  | _ => exact .kept rfl

theorem substituted_mapAll (nonempty : pattern ≠ "") (node : Node) :
    node.Substituted pattern path (node.mapAll (Pass.substitutePath pattern path)) := by
  induction node using childInduction with
  | step node ih =>
      rw [mapAll_eq]
      refine .intro (frame_mapChildren _ node) ?_ (substitutedHere_substitutePath nonempty _)
      rw [children_mapChildren, List.forall₂_map_right_iff, List.forall₂_same]
      exact ih

private theorem not_infix_writing?_substitutePath (nonempty : pattern ≠ "") (visible : path ≠ "")
    (foreign : ∀ character ∈ pattern.toList, character ∉ path.toList) {node : Node}
    {writing : String} (written : writing ∈ (Pass.substitutePath pattern path node).writing?) :
    ¬pattern.toList <:+: writing.toList := by
  cases node with
  | text scope body =>
      obtain rfl : Text.replace pattern path body = writing := Option.some.inj written
      exact Text.not_infix_replace nonempty visible foreign body
  | link scope target children =>
      cases target with
      | address url =>
          obtain rfl : Text.replace pattern path url = writing := Option.some.inj written
          exact Text.not_infix_replace nonempty visible foreign url
      | declaration dri => cases written
  | _ => cases written

/-- The pattern stands nowhere in a tree in which a path without its characters stands in for it. -/
theorem not_infix_of_mem_walk_mapAll (nonempty : pattern ≠ "") (visible : path ≠ "")
    (foreign : ∀ character ∈ pattern.toList, character ∉ path.toList) {content node : Node}
    (visited : node ∈ (content.mapAll (Pass.substitutePath pattern path)).walk) {writing : String}
    (written : writing ∈ node.writing?) : ¬pattern.toList <:+: writing.toList := by
  have retouches : ∀ node : Node, node.RetouchedHere (Pass.substitutePath pattern path node) :=
    (Pass.pathToRoot pattern path).retouches_change 0
  rw [walk_mapAll retouches] at visited
  obtain ⟨before, -, rfl⟩ := List.mem_map.mp visited
  rw [mapAll_eq] at written
  exact not_infix_writing?_substitutePath nonempty visible foreign written

end Content.Node

/-! ## Pages -/

/-- The finished page is the given one, the pages below it apart, with a path in its content for the
pattern. -/
structure Page.Substituted (pattern path : String) (given finished : Page) : Prop where
  kind : finished.kind = given.kind
  name : finished.name = given.name
  dris : finished.dris = given.dris
  declarations : finished.declarations = given.declarations
  content : given.content.Substituted pattern path finished.content

namespace Pass

theorem walk_apply_pathToRoot (pattern path : String) (page : Page) :
    ((pathToRoot pattern path).apply page).walk =
      page.walk.map fun placed =>
        (placed.1, placed.2.changeContents
          (fun depth => Node.mapAll (substitutePath pattern (pathFrom path depth))) placed.1) :=
  Page.walkFrom_mapFrom _ 0 page

/-- The default path from a depth to the root page. -/
theorem pathFrom_rootPath (depth : Nat) :
    pathFrom rootPath depth =
      if depth = 0 then "." else String.intercalate "/" (List.replicate depth "..") := by
  cases depth <;> rfl

/-- After the pass with its default pattern and path, the pattern is nowhere in the texts and
addresses of the tree. The walk meets the pages of the given tree at their depths, and all that
became of a page is that the occurrences of the pattern from the left, in each text and address, are
now the path to the root: a dot on the root page, and two dots for every level on another one. The
pass changes nothing the second time. -/
theorem apply_pathToRoot_substitutes (page : Page) :
    let finished := (pathToRoot rootPattern rootPath).apply page
    (∀ placed ∈ finished.walk, ∀ node ∈ placed.2.content.walk, ∀ writing ∈ node.writing?,
      ¬"###".toList <:+: writing.toList) ∧
    List.Forall₂
      (fun given finished => finished.1 = given.1 ∧
        given.2.Substituted "###"
          (if given.1 = 0 then "." else String.intercalate "/" (List.replicate given.1 ".."))
          finished.2)
      page.walk finished.walk ∧
    (pathToRoot rootPattern rootPath).apply finished = finished := by
  have nonempty : rootPattern ≠ "" := by decide
  refine ⟨?_, ?_, apply_idem (by decide) page⟩
  · rw [walk_apply_pathToRoot, List.forall_mem_map]
    rintro ⟨depth, original⟩ - node visited writing written
    dsimp only at visited
    rw [Page.changeContents_eq] at visited
    exact Node.not_infix_of_mem_walk_mapAll nonempty (pathFrom_spec depth).1
      (foreign_rootPattern depth) visited written
  · rw [walk_apply_pathToRoot, List.forall₂_map_right_iff, List.forall₂_same]
    rintro ⟨depth, original⟩ -
    dsimp only
    rw [Page.changeContents_eq, ← pathFrom_rootPath]
    exact ⟨rfl, rfl, rfl, rfl, rfl, Node.substituted_mapAll nonempty original.content⟩

/-- A chain of three pages, each with the pattern in the address of a link, in the text of the link
and in the caption of a table, where marks of the pattern are left over or short of it. -/
private def nested : Page :=
  let content : Node :=
    .group {}
      [.link {} (.address "###/index.html") [.text {} "####"],
        .table {} (some (.text {} "#a#####b##")) [] []]
  ⟨.module, "shapes", content, {}, [],
    [⟨.package, "shapes", content, {}, [], [⟨.member, "open", content, {}, [], []⟩]⟩]⟩

theorem apply_pathToRoot_substitutes_nested :
    let finished := (pathToRoot rootPattern rootPath).apply nested
    (finished.walk.map fun placed => placed.2.content.walk.filterMap Node.writing?) =
        [["./index.html", ".#", "#a.##b##"], ["../index.html", "..#", "#a..##b##"],
          ["../../index.html", "../..#", "#a../..##b##"]] ∧
      (∀ placed ∈ finished.walk, ∀ node ∈ placed.2.content.walk, ∀ writing ∈ node.writing?,
        ¬"###".toList <:+: writing.toList) ∧
      (pathToRoot rootPattern rootPath).apply finished = finished :=
  have ⟨gone, _, again⟩ := apply_pathToRoot_substitutes nested
  ⟨by decide, gone, again⟩

end Pass

end DocPages
