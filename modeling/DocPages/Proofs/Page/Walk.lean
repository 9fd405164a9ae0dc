import DocPages.Collection.Elementwise
import DocPages.Page.Tree

/-!
# The pages of a tree

The pages of a tree without their depths, induction on trees, and how a change of all pages acts on
a tree.
-/

namespace DocPages

namespace Page

/-- The page and all pages below it, a page before its children. -/
def all (page : Page) : List Page := page.walk.map Prod.snd

mutual

private theorem map_snd_walkFrom (first second : Nat) : (page : Page) →
    (page.walkFrom first).map Prod.snd = (page.walkFrom second).map Prod.snd
  | ⟨_, _, _, _, _, children⟩ => by
    simp [walkFrom, map_snd_walkListFrom (first + 1) (second + 1) children]

private theorem map_snd_walkListFrom (first second : Nat) : (pages : List Page) →
    (walkListFrom first pages).map Prod.snd = (walkListFrom second pages).map Prod.snd
  | [] => rfl
  | head :: tail => by
    simp [walkListFrom, map_snd_walkFrom first second head, map_snd_walkListFrom first second tail]

end

private theorem walkListFrom_eq (depth : Nat) (pages : List Page) :
    walkListFrom depth pages = pages.flatMap (walkFrom depth) :=
  eq_flatMap_of_cons (by rw [walkListFrom]) (fun _ _ => by rw [walkListFrom]) pages

private theorem map_snd_walkListFrom_eq (depth : Nat) (pages : List Page) :
    (walkListFrom depth pages).map Prod.snd = pages.flatMap all := by
  rw [walkListFrom_eq, List.map_flatMap, List.flatMap_def, List.flatMap_def]
  exact congrArg List.flatten (List.map_congr_left fun page _ => map_snd_walkFrom depth 0 page)

/-- The pages of a tree are its root and the pages of its children. -/
theorem all_eq (page : Page) : page.all = page :: page.children.flatMap all := by
  obtain ⟨kind, name, content, dris, declarations, children⟩ := page
  rw [all, walk, walkFrom, List.map_cons, map_snd_walkListFrom_eq]

private theorem length_all_lt {child page : Page} (member : child ∈ page.children) :
    child.all.length < page.all.length := by
  have reached : child.all.Sublist (page.children.map all).flatten :=
    List.sublist_flatten_of_mem (List.mem_map_of_mem member)
  rw [all_eq page, List.length_cons, List.flatMap_def]
  exact Nat.lt_succ_of_le reached.length_le

/-- What holds of every page if it holds of a page whenever it holds of its children. -/
theorem childInduction {motive : Page → Prop}
    (step : ∀ page, (∀ child ∈ page.children, motive child) → motive page) (page : Page) :
    motive page :=
  step page fun child _member => childInduction step child
termination_by page.all.length
decreasing_by exact length_all_lt ‹_›

theorem mapListFrom_eq (change : Nat → Page → Page) (depth : Nat) (pages : List Page) :
    mapListFrom change depth pages = pages.map (mapFrom change depth) :=
  eq_map_of_cons (by rw [mapListFrom]) (fun _ _ => by rw [mapListFrom]) pages

/-- A changed tree has the changed root and the changed children. -/
theorem mapFrom_eq (change : Nat → Page → Page) (depth : Nat) (page : Page) :
    page.mapFrom change depth =
      { change depth page with children := page.children.map (mapFrom change (depth + 1)) } := by
  obtain ⟨kind, name, content, dris, declarations, children⟩ := page
  rw [mapFrom, mapListFrom_eq]

/-- A change that leaves every page as it is leaves every tree as it is. -/
theorem mapFrom_eq_self {change : Nat → Page → Page}
    (fixes : ∀ depth page, change depth page = page) (depth : Nat) (page : Page) :
    page.mapFrom change depth = page := by
  induction page using childInduction generalizing depth with
  | step page ih =>
      rw [mapFrom_eq, fixes, List.map_congr_left fun child member => ih child member (depth + 1),
        List.map_id']
      cases page
      rfl

/-- The walk visits a page and then its children, one level deeper. -/
theorem walkFrom_eq (depth : Nat) (page : Page) :
    page.walkFrom depth = (depth, page) :: page.children.flatMap (walkFrom (depth + 1)) := by
  obtain ⟨kind, name, content, dris, declarations, children⟩ := page
  rw [walkFrom, walkListFrom_eq]

/-- The walk through a changed tree visits the changed pages at the same depths. -/
theorem walkFrom_mapFrom (change : Nat → Page → Page) (depth : Nat) (page : Page) :
    (page.mapFrom change depth).walkFrom depth =
      (page.walkFrom depth).map fun placed => (placed.1, placed.2.mapFrom change placed.1) := by
  induction page using childInduction generalizing depth with
  | step page ih =>
      rw [walkFrom_eq, walkFrom_eq depth page, List.map_cons, List.map_flatMap]
      congr 1
      rw [mapFrom_eq, List.flatMap_map, List.flatMap_def, List.flatMap_def]
      exact congrArg List.flatten
        (List.map_congr_left fun child member => ih child member (depth + 1))

/-- The tree with the content of every page changed according to the depth of the page. -/
def changeContents (change : Nat → Content.Node → Content.Node) (depth : Nat) (page : Page) :
    Page :=
  page.mapFrom (fun depth page => { page with content := change depth page.content }) depth

theorem changeContents_eq (change : Nat → Content.Node → Content.Node) (depth : Nat)
    (page : Page) :
    page.changeContents change depth =
      { page with
        content := change depth page.content
        children := page.children.map (changeContents change (depth + 1)) } :=
  mapFrom_eq _ depth page

/-- Two changes of all contents are made in one go. -/
theorem changeContents_changeContents (outer inner : Nat → Content.Node → Content.Node)
    (depth : Nat) (page : Page) :
    (page.changeContents inner depth).changeContents outer depth =
      page.changeContents (fun depth => outer depth ∘ inner depth) depth := by
  induction page using childInduction generalizing depth with
  | step page ih =>
      rw [changeContents_eq, changeContents_eq inner, changeContents_eq _ depth page, List.map_map]
      congr 1
      exact List.map_congr_left fun child member => ih child member (depth + 1)

theorem changeContents_eq_self {change : Nat → Content.Node → Content.Node}
    (fixes : ∀ depth content, change depth content = content) (depth : Nat) (page : Page) :
    page.changeContents change depth = page :=
  mapFrom_eq_self (fun depth page => by rw [fixes]; cases page; rfl) depth page

end Page

end DocPages
