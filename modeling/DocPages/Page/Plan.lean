import DocPages.Page.Subject

/-!
# Page plans

Which pages a page tree has and what each of them is for, before anything is written on them. Types
are nested to a finite depth, so that unfolding what is below a subject ends.
-/

namespace DocPages

/-- A page to be made with the pages below it. -/
structure PagePlan where
  subject : Subject
  children : List PagePlan

namespace PagePlan

mutual

/-- The subjects of a plan, one before those below it. -/
def subjects : PagePlan → List Subject
  | ⟨subject, children⟩ => subject :: subjectsOfList children

/-- The subjects of the plans of a list, joined. -/
def subjectsOfList : List PagePlan → List Subject
  | [] => []
  | head :: tail => subjects head ++ subjectsOfList tail

end

end PagePlan

namespace Arrangement

/-- The plan of the pages of a subject, at most some levels deep. -/
def planWithin (arrangement : Arrangement) : Nat → Subject → PagePlan
  | 0, subject => ⟨subject, []⟩
  | levels + 1, subject =>
    ⟨subject, (arrangement.below subject).map (planWithin arrangement levels)⟩

/-- The plan of the pages of a subject. -/
def plan (arrangement : Arrangement) (subject : Subject) : PagePlan :=
  arrangement.planWithin subject.levels subject

end Arrangement

end DocPages
