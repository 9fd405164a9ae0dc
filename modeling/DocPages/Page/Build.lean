import DocPages.Page.Contents
import DocPages.Page.Plan

/-!
# Building pages

Pages are made from their plan, the pages below a page before its own content. The first failure
ends the build.
-/

namespace DocPages

namespace PageMaker

mutual

/-- The page of a plan. -/
def buildPlan (maker : PageMaker) : PagePlan → ExceptT Failure Build Page
  | ⟨subject, children⟩ => do
    subject.problems.forM fun problem => Build.report problem
    let pages ← buildPlans maker children
    let content ← maker.content subject
    return {
      kind := subject.kind, name := subject.name, content, dris := subject.dris
      declarations := subject.declarations, children := pages }

/-- The pages of a list of plans. -/
def buildPlans (maker : PageMaker) : List PagePlan → ExceptT Failure Build (List Page)
  | [] => return []
  | head :: tail => return (← buildPlan maker head) :: (← buildPlans maker tail)

end

/-- The page of a subject with all pages below it. -/
def build (maker : PageMaker) (subject : Subject) : ExceptT Failure Build Page :=
  maker.buildPlan (maker.plan subject)

end PageMaker

end DocPages
