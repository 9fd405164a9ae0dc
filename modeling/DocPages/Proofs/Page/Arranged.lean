import DocPages.Proofs.Page.Building
import DocPages.Proofs.Page.Correspondence
import DocPages.Proofs.Page.Passes

/-!
# Arranged page trees

The tree that a build makes has a page for its subject and, below it, the trees of the subjects that
the arrangement places there. Two arrangements that place the same subjects below each other make
corresponding trees.
-/

namespace DocPages

open Build

/-- Elements that two lists have in one place beside a list are related. -/
private theorem forall₂_of_beside {α β γ : Type} {left : α → β → Prop} {right : α → γ → Prop}
    {relation : β → γ → Prop} {elements : List α} {firsts : List β} {seconds : List γ}
    (besideFirst : List.Forall₂ left elements firsts)
    (besideSecond : List.Forall₂ right elements seconds)
    (related : ∀ element ∈ elements, ∀ first second,
      left element first → right element second → relation first second) :
    List.Forall₂ relation firsts seconds := by
  induction besideFirst generalizing seconds with
  | nil =>
      cases besideSecond
      exact .nil
  | cons head tail ih =>
      cases besideSecond with
      | cons headOther tailOther =>
          refine .cons (related _ List.mem_cons_self _ _ head headOther) (ih tailOther ?_)
          exact fun element member => related element (List.mem_cons_of_mem _ member)

/-- The tree has the page of the subject, with a content as described, and below it the trees of the
subjects that stand there. -/
inductive Arrangement.Arranges (arrangement : Arrangement)
    (shown : Subject → Content.Node → Prop) : Subject → Page → Prop
  | page {subject : Subject} {content : Content.Node} {children : List Page}
      (holds : shown subject content)
      (below : List.Forall₂ (Arranges arrangement shown) (arrangement.below subject) children) :
      Arranges arrangement shown subject (subject.page content children)

/-- Arrangements that place the same subjects below each other make corresponding trees, if the
pages of a subject with contents as described are related. -/
theorem Arrangement.Arranges.corresponds {first second : Arrangement}
    {shown others : Subject → Content.Node → Prop} {relation : Page → Page → Prop}
    (sameBelow : ∀ subject, second.below subject = first.below subject)
    (related : ∀ subject content other children below, shown subject content →
      others subject other → relation (subject.page content children) (subject.page other below))
    {subject : Subject} {left right : Page} (arranged : first.Arranges shown subject left)
    (alsoArranged : second.Arranges others subject right) : left.Corresponds relation right := by
  induction subject using first.belowInduction generalizing left right with
  | step subject ih =>
      cases arranged with
      | page holds below =>
          cases alsoArranged with
          | page otherHolds otherBelow =>
              rw [sameBelow] at otherBelow
              refine .intro (related subject _ _ _ _ holds otherHolds)
                (forall₂_of_beside below otherBelow ?_)
              exact fun placed member left right => ih placed member

/-- A property of all pages of a tree follows from what it is for and what its contents show. -/
theorem Arrangement.Arranges.forall_mem_all {arrangement : Arrangement}
    {shown : Subject → Content.Node → Prop} {eligible : Subject → Prop} {property : Page → Prop}
    (below : ∀ subject, eligible subject → ∀ placed ∈ arrangement.below subject, eligible placed)
    (page : ∀ subject content children, eligible subject → shown subject content →
      property (subject.page content children))
    {subject : Subject} {root : Page} (arranged : arrangement.Arranges shown subject root)
    (isEligible : eligible subject) : ∀ reached ∈ root.all, property reached := by
  induction subject using arrangement.belowInduction generalizing root with
  | step subject ih =>
      cases arranged with
      | @page _ content children holds placedBelow =>
          rw [Page.all_eq, List.forall_mem_cons, List.forall_mem_flatMap]
          refine ⟨page subject content children isEligible holds, fun child isChild => ?_⟩
          obtain ⟨placed, isBelow, childArranged⟩ := exists_related_of_mem placedBelow.flip isChild
          exact ih placed isBelow childArranged (below subject isEligible placed isBelow)

/-- A change of contents leaves a tree arranged, and its contents as described if they are. -/
theorem Arrangement.Arranges.changeContents {arrangement : Arrangement}
    {shown finished : Subject → Content.Node → Prop} {change : Nat → Content.Node → Content.Node}
    (keeps : ∀ depth subject content, shown subject content →
      finished subject (change depth content))
    {subject : Subject} {root : Page} (arranged : arrangement.Arranges shown subject root)
    (depth : Nat) : arrangement.Arranges finished subject (root.changeContents change depth) := by
  induction subject using arrangement.belowInduction generalizing root depth with
  | step subject ih =>
      cases arranged with
      | @page _ content children holds placedBelow =>
          rw [Page.changeContents_eq]
          refine .page (keeps depth subject content holds) (List.forall₂_map_right_iff.mpr ?_)
          exact ((List.forall₂_and_left _ _).mpr ⟨ih, placedBelow⟩).imp
            fun placed child both => both.1 both.2 (depth + 1)

/-- A build that succeeds makes the tree of its subject, with contents that making them ensures. -/
theorem PageMaker.ensures_arranges (maker : PageMaker) {invariant : Session → Prop}
    {eligible : Subject → Prop} {shown : Subject → Content.Node → Prop}
    (below : ∀ subject, eligible subject → ∀ placed ∈ maker.below subject, eligible placed)
    (content : ∀ subject, eligible subject →
      EnsuresUnlessFailed invariant (maker.content subject) (shown subject))
    {subject : Subject} {dri : Dri} (hasDri : subject.HasDri dri) (isEligible : eligible subject) :
    EnsuresUnlessFailed invariant (maker.build subject) (maker.Arranges shown subject) :=
  maker.ensures_build below content
    (fun _ _ _ _ _ _ holds children => .page holds children) hasDri isEligible

/-- The generated tree of a module has the pages of the module in their places. Its contents are as
making them ensures, if the standard passes keep that. -/
theorem ModuleDecl.arranges_of_generate {settings : Settings} {decl : ModuleDecl}
    {generated : Generated} {shown : Subject → Content.Node → Prop}
    (content : ∀ subject, EnsuresUnlessFailed (fun _ => True)
      ((decl.pageMaker settings []).content subject) (shown subject))
    (keeps : ∀ depth subject content, shown subject content →
      shown subject (Pass.finish Pass.standard depth content))
    (success : decl.generate settings = .ok generated) :
    (decl.pageMaker settings []).Arranges shown (.module decl) generated.root := by
  obtain ⟨page, session, run, root, -⟩ := exists_build_of_generate success
  have arranged := (decl.pageMaker settings []).ensures_arranges (fun _ _ _ _ => trivial)
    (fun subject _ => content subject) (Subject.hasDri_module decl) trivial
  have built := (arranged {} trivial).1
  rw [run] at built
  rw [root, Pass.applyAll_fst_eq]
  exact (built page rfl).changeContents keeps 0

end DocPages
