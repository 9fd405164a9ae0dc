import Mathlib.Data.List.Forall2
import DocPages.Proofs.Page.Walk

/-!
# Corresponding page trees

Two page trees correspond if they have one shape and their pages are related place by place. Changes
of the contents of a tree lead to a tree that corresponds to it. A tree is determined by its walk:
the pages below a page are those after it up to the next one that is not deeper, so trees correspond
exactly if their walks meet related pages at the same depths.
-/

namespace DocPages

namespace Page

/-- The trees have one shape, and the pages in one place are related. -/
inductive Corresponds (relation : Page → Page → Prop) : Page → Page → Prop
  | intro {left right : Page} (own : relation left right)
      (below : List.Forall₂ (Corresponds relation) left.children right.children) :
      Corresponds relation left right

/-- A tree corresponds to the tree with changed contents, if each page is related to its change. -/
theorem corresponds_changeContents {relation : Page → Page → Prop}
    {change : Nat → Content.Node → Content.Node}
    (related : ∀ depth page, relation page (page.changeContents change depth)) (depth : Nat)
    (page : Page) : page.Corresponds relation (page.changeContents change depth) := by
  induction page using childInduction generalizing depth with
  | step page ih =>
      refine .intro (related depth page) ?_
      rw [changeContents_eq, List.forall₂_map_right_iff, List.forall₂_same]
      exact fun child member => ih child member (depth + 1)

/-! ## Walks side by side -/

variable {relation : Page → Page → Prop} {depth : Nat}

/-- The pages are met at one depth and are related. -/
def Beside (relation : Page → Page → Prop) (left right : Nat × Page) : Prop :=
  left.1 = right.1 ∧ relation left.2 right.2

/-- A list of visits is empty or continues above a depth. -/
private def LeavesBelow (depth : Nat) (visits : List (Nat × Page)) : Prop :=
  ∀ next ∈ visits.head?, next.1 < depth

private theorem leavesBelow_walks {rest : List (Nat × Page)} (leaves : LeavesBelow depth rest)
    (pages : List Page) : LeavesBelow (depth + 1) (pages.flatMap (walkFrom depth) ++ rest) := by
  intro next isNext
  cases pages with
  | nil => exact Nat.lt_succ_of_lt (leaves next isNext)
  | cons page pages =>
      rw [List.flatMap_cons, walkFrom_eq] at isNext
      obtain rfl : (depth, page) = next := by simpa using isNext
      exact Nat.lt_succ_self depth

/-- A visit that continues above a depth is not beside one at that depth. -/
private theorem not_beside_walk {rest walked : List (Nat × Page)} (leaves : LeavesBelow depth rest)
    (page : Page) : ¬List.Forall₂ (Beside relation) rest (page.walkFrom depth ++ walked) := by
  intro beside
  rw [walkFrom_eq, List.cons_append] at beside
  cases beside with
  | @cons next _ rest _ first _ =>
      have above : next.1 < depth := leaves next rfl
      rw [first.1] at above
      exact Nat.lt_irrefl depth above

/-- The walk through a page, whatever follows it above the depth of the children, determines which
trees have it beside their own walk. -/
private def IsRead (relation : Page → Page → Prop) (page : Page) : Prop :=
  ∀ (other : Page) (depth : Nat) (rest others : List (Nat × Page)),
    LeavesBelow (depth + 1) rest → LeavesBelow (depth + 1) others →
      List.Forall₂ (Beside relation) (page.walkFrom depth ++ rest)
        (other.walkFrom depth ++ others) →
      page.Corresponds relation other ∧ List.Forall₂ (Beside relation) rest others

private theorem corresponds_of_walks {left right : List Page} {rest others : List (Nat × Page)}
    (areRead : ∀ page ∈ left, IsRead relation page) (leaves : LeavesBelow depth rest)
    (othersLeave : LeavesBelow depth others)
    (beside : List.Forall₂ (Beside relation) (left.flatMap (walkFrom depth) ++ rest)
      (right.flatMap (walkFrom depth) ++ others)) :
    List.Forall₂ (Corresponds relation) left right ∧
      List.Forall₂ (Beside relation) rest others := by
  induction left generalizing right with
  | nil =>
      cases right with
      | nil => exact ⟨.nil, beside⟩
      | cons other right =>
          rw [List.flatMap_cons, List.append_assoc] at beside
          exact (not_beside_walk leaves other beside).elim
  | cons page left ih =>
      rw [List.flatMap_cons, List.append_assoc] at beside
      cases right with
      | nil =>
          have flipped : List.Forall₂ (Beside (flip relation)) others
              (page.walkFrom depth ++ (left.flatMap (walkFrom depth) ++ rest)) :=
            (beside.flip).imp fun _ _ beside => ⟨beside.1.symm, beside.2⟩
          exact (not_beside_walk othersLeave page flipped).elim
      | cons other right =>
          rw [List.flatMap_cons, List.append_assoc] at beside
          obtain ⟨pageRead, leftRead⟩ := List.forall_mem_cons.mp areRead
          obtain ⟨first, beside⟩ := pageRead other depth _ _ (leavesBelow_walks leaves left)
            (leavesBelow_walks othersLeave right) beside
          obtain ⟨later, beside⟩ := ih leftRead beside
          exact ⟨.cons first later, beside⟩

private theorem isRead (relation : Page → Page → Prop) (page : Page) : IsRead relation page := by
  induction page using childInduction with
  | step page ih =>
      intro other depth rest others leaves othersLeave beside
      rw [walkFrom_eq, walkFrom_eq depth other, List.cons_append, List.cons_append,
        List.forall₂_cons] at beside
      obtain ⟨⟨-, own⟩, beside⟩ := beside
      obtain ⟨below, beside⟩ := corresponds_of_walks ih leaves othersLeave beside
      exact ⟨.intro own below, beside⟩

private theorem beside_walks {left right : List Page}
    (below : List.Forall₂ (Corresponds relation) left right)
    (each : ∀ page ∈ left, ∀ other, page.Corresponds relation other →
      List.Forall₂ (Beside relation) (page.walkFrom depth) (other.walkFrom depth)) :
    List.Forall₂ (Beside relation) (left.flatMap (walkFrom depth))
      (right.flatMap (walkFrom depth)) := by
  induction below with
  | nil => exact .nil
  | cons first later ih =>
      obtain ⟨pageBeside, laterBeside⟩ := List.forall_mem_cons.mp each
      rw [List.flatMap_cons, List.flatMap_cons]
      exact List.rel_append (pageBeside _ first) (ih laterBeside)

private theorem Corresponds.beside {left right : Page}
    (corresponds : left.Corresponds relation right) :
    List.Forall₂ (Beside relation) (left.walkFrom depth) (right.walkFrom depth) := by
  induction left using childInduction generalizing right depth with
  | step left ih =>
      obtain ⟨own, below⟩ := corresponds
      rw [walkFrom_eq, walkFrom_eq depth right]
      exact .cons ⟨rfl, own⟩
        (beside_walks below fun page member other corresponds => ih page member corresponds)

/-- Trees correspond exactly if their walks meet related pages at the same depths. -/
theorem corresponds_iff_walk {left right : Page} :
    left.Corresponds relation right ↔ List.Forall₂ (Beside relation) left.walk right.walk := by
  refine ⟨Corresponds.beside, fun beside => ?_⟩
  have leaves : LeavesBelow 1 [] := by simp [LeavesBelow]
  rw [walk, walk, ← List.append_nil (left.walkFrom 0),
    ← List.append_nil (right.walkFrom 0)] at beside
  exact (isRead relation left right 0 [] [] leaves leaves beside).1

end Page

end DocPages
