import DocPages.Proofs.Page.Correspondence
import DocPages.Proofs.Page.Passes
import DocPages.Proofs.Text.Substitution

/-!
# Laws of the standard passes

The standard passes touch disjoint parts of a node: one the styles of brief comments, one texts and
addresses, and one nothing. So they may run in any order, and with the same reports, since none of
them changes what the check for coverage reads. Running them again changes nothing: a brief comment
is a block already, and the path to the root page does not bring the pattern back.
-/

namespace DocPages

open Content

namespace Pass

/-! ## The path to the root page -/

private theorem pathFrom_succ_succ (rootPath : String) (depth : Nat) :
    pathFrom rootPath (depth + 2) = ".." ++ "/" ++ pathFrom rootPath (depth + 1) := by
  rw [pathFrom, List.replicate_succ, List.replicate_succ, String.intercalate_cons_cons,
    ← List.replicate_succ, pathFrom]

/-- The path is written with dots and slashes, and it is not empty. -/
theorem pathFrom_spec (depth : Nat) :
    pathFrom rootPath depth ≠ "" ∧
      ∀ character ∈ (pathFrom rootPath depth).toList, character = '.' ∨ character = '/' := by
  match depth with
  | 0 => simp [pathFrom, rootPath]
  | 1 => simp [pathFrom]
  | depth + 2 =>
      obtain ⟨-, below⟩ := pathFrom_spec (depth + 1)
      rw [pathFrom_succ_succ]
      refine ⟨by simp, fun character member => ?_⟩
      simp only [String.toList_append, List.mem_append] at member
      rcases member with (inDots | inSlash) | later
      · exact .inl (by simpa using inDots)
      · exact .inr (by simpa using inSlash)
      · exact below character later

/-- The path to the root page has no character of the pattern that stands for it. -/
theorem foreign_rootPattern (depth : Nat) :
    ∀ character ∈ rootPattern.toList, character ∉ (pathFrom rootPath depth).toList := by
  intro character inPattern inPath
  have isHash : character = '#' := by simpa [rootPattern] using inPattern
  rcases (pathFrom_spec depth).2 character inPath with isDot | isSlash
  · simp [isHash] at isDot
  · simp [isHash] at isSlash

/-- The path to the root page does not bring the pattern back. -/
theorem replace_rootPattern_twice (depth : Nat) (text : String) :
    Text.replace rootPattern (pathFrom rootPath depth)
        (Text.replace rootPattern (pathFrom rootPath depth) text) =
      Text.replace rootPattern (pathFrom rootPath depth) text :=
  Text.replace_replace (by decide) (pathFrom_spec depth).1 (foreign_rootPattern depth) text

/-! ## Single nodes -/

/-- Brief comments are groups, and the path is replaced in texts and links. -/
private theorem change_briefBlocks_pathToRoot (pattern rootPath : String) (depth : Nat)
    (node : Node) :
    briefBlocks.change depth ((pathToRoot pattern rootPath).change depth node) =
      (pathToRoot pattern rootPath).change depth (briefBlocks.change depth node) := by
  cases node with
  | group scope children =>
      rw [change_briefBlocks_group]
      exact change_briefBlocks_group depth scope children
  | link scope target children => cases target <;> rfl
  | _ => rfl

private theorem change_comm {first second : Pass} (isFirst : first ∈ standard)
    (isSecond : second ∈ standard) (depth : Nat) :
    second.change depth ∘ first.change depth = first.change depth ∘ second.change depth := by
  funext node
  simp only [standard, List.mem_cons, List.not_mem_nil, or_false] at isFirst isSecond
  rcases isFirst with rfl | rfl | rfl <;> rcases isSecond with rfl | rfl | rfl <;>
    first
    | rfl
    | exact change_briefBlocks_pathToRoot rootPattern rootPath depth node
    | exact (change_briefBlocks_pathToRoot rootPattern rootPath depth node).symm

private theorem change_change {pass : Pass} (isStandard : pass ∈ standard) (depth : Nat) :
    pass.change depth ∘ pass.change depth = pass.change depth := by
  funext node
  simp only [standard, List.mem_cons, List.not_mem_nil, or_false] at isStandard
  rcases isStandard with rfl | rfl | rfl
  · cases node with
    | group scope children =>
        rw [Function.comp_apply, change_briefBlocks_group, change_briefBlocks_group]
        split <;> simp_all
    | _ => rfl
  · cases node with
    | text scope body => exact congrArg (Node.text scope) (replace_rootPattern_twice depth body)
    | link scope target children =>
        cases target with
        | declaration dri => rfl
        | address url =>
            exact congrArg (fun url => Node.link scope (.address url) children)
              (replace_rootPattern_twice depth url)
    | _ => rfl
  · rfl

end Pass

/-! ## Page trees -/

/-- The finished page is the given one with its content retouched and otherwise kept. -/
structure Page.Retouched (given finished : Page) : Prop where
  kind : finished.kind = given.kind
  name : finished.name = given.name
  dris : finished.dris = given.dris
  declarations : finished.declarations = given.declarations
  content : given.content.Retouched finished.content

namespace Pass

/-- Two passes go through a tree in one go. -/
private theorem apply_apply (first second : Pass) (page : Page) :
    second.apply (first.apply page) =
      page.changeContents
        (fun depth => Node.mapAll (second.change depth ∘ first.change depth)) 0 := by
  rw [apply_eq_changeContents, apply_eq_changeContents, Page.changeContents_changeContents]
  congr 1
  funext depth content
  exact Node.mapAll_mapAll (second.change depth) (first.ignoresChildren_change depth) content

theorem apply_comm {first second : Pass} (isFirst : first ∈ standard)
    (isSecond : second ∈ standard) (page : Page) :
    second.apply (first.apply page) = first.apply (second.apply page) := by
  rw [apply_apply, apply_apply]
  simp only [change_comm isFirst isSecond]

theorem apply_idem {pass : Pass} (isStandard : pass ∈ standard) (page : Page) :
    pass.apply (pass.apply page) = pass.apply page := by
  rw [apply_apply, apply_eq_changeContents]
  simp only [change_change isStandard]

/-- No pass changes what another one reports. -/
theorem problems_apply (first second : Pass) (page : Page) :
    second.problems (first.apply page) = second.problems page := by
  cases second with
  | coverageCheck =>
      rw [problems, problems, apply_eq_changeContents, Page.walk, Page.changeContents,
        Page.walkFrom_mapFrom, List.flatMap_map]
      refine List.flatMap_congr fun placed _ => ?_
      rw [Page.mapFrom_eq]
      exact congrArg (List.map (Problem.uncoveredSourceSets placed.2.name))
        (Node.coverageGaps_mapAll (first.retouches_change placed.1) placed.2.content)
  | _ => rfl

/-- One of two different standard passes reports nothing. -/
private theorem problems_append_comm {first second : Pass} (isFirst : first ∈ standard)
    (isSecond : second ∈ standard) (page : Page) :
    first.problems page ++ second.problems page = second.problems page ++ first.problems page := by
  simp only [standard, List.mem_cons, List.not_mem_nil, or_false] at isFirst isSecond
  rcases isFirst with rfl | rfl | rfl <;> rcases isSecond with rfl | rfl | rfl <;>
    simp [problems]

/-- The standard passes can be run in any order. -/
theorem applyAll_eq_of_perm {passes : List Pass} (perm : passes.Perm standard) (page : Page) :
    applyAll passes page = applyAll standard page := by
  refine List.Perm.foldl_eq' perm (fun first isFirst second isSecond state => ?_) (page, [])
  obtain ⟨page, reported⟩ := state
  have isFirst := perm.mem_iff.mp isFirst
  have isSecond := perm.mem_iff.mp isSecond
  simp only [apply_comm isFirst isSecond, problems_apply, List.append_assoc,
    problems_append_comm isFirst isSecond]

/-- The standard passes change nothing the second time. -/
theorem applyAll_standard_twice (page : Page) :
    applyAll standard (applyAll standard page).1 = applyAll standard page := by
  have isBrief : briefBlocks ∈ standard := by decide
  have isPath : pathToRoot rootPattern rootPath ∈ standard := by decide
  have tree : (applyAll standard (applyAll standard page).1).1 = (applyAll standard page).1 :=
    calc (pathToRoot rootPattern rootPath).apply (briefBlocks.apply
            ((pathToRoot rootPattern rootPath).apply (briefBlocks.apply page)))
        = (pathToRoot rootPattern rootPath).apply ((pathToRoot rootPattern rootPath).apply
            (briefBlocks.apply (briefBlocks.apply page))) := by
          rw [apply_comm isPath isBrief]
      _ = (pathToRoot rootPattern rootPath).apply (briefBlocks.apply page) := by
          rw [apply_idem isPath, apply_idem isBrief]
  refine Prod.ext tree ?_
  rw [problems_applyAll_standard, problems_applyAll_standard, tree]

/-- The standard passes do the same to a page tree in every order, with the same reports, and
running them on their own result changes nothing. The finished tree has the pages of the given one,
whose kinds, names, identities and declarations stay; the contents of the pages are retouched and
otherwise kept. -/
theorem applyAll_standard {passes : List Pass} (perm : passes.Perm standard) (page : Page) :
    applyAll passes page = applyAll standard page ∧
      applyAll standard (applyAll standard page).1 = applyAll standard page ∧
      page.Corresponds Page.Retouched (applyAll passes page).1 := by
  refine ⟨applyAll_eq_of_perm perm page, applyAll_standard_twice page, ?_⟩
  rw [applyAll_fst_eq]
  refine Page.corresponds_changeContents (fun depth page => ?_) 0 page
  rw [Page.changeContents_eq]
  exact ⟨rfl, rfl, rfl, rfl, retouched_finish passes depth page.content⟩

/-- A page with a brief comment and a page below it, each with a link to the root page. -/
private def linked : Page :=
  let content : Node :=
    .group { kind := .briefComment, sourceSets := .singleton ⟨"shapes", "common"⟩ }
      [.link {} (.address "###/index.html") [.text {} "####"]]
  ⟨.package, "shapes", content, {}, [], [⟨.member, "open", content, {}, [], []⟩]⟩

theorem applyAll_standard_linked :
    let reversed := [coverageCheck, pathToRoot rootPattern rootPath, briefBlocks]
    reversed.Perm standard ∧ applyAll reversed linked = applyAll standard linked ∧
      applyAll standard (applyAll standard linked).1 = applyAll standard linked ∧
      ((applyAll reversed linked).1.walk.map fun placed => placed.2.content.textContent) =
        [".#", "..#"] :=
  have perm : [coverageCheck, pathToRoot rootPattern rootPath, briefBlocks].Perm standard := by
    decide
  have ⟨sameResult, sameAgain, _⟩ := applyAll_standard perm linked
  ⟨perm, sameResult, sameAgain, by decide⟩

end Pass

end DocPages
