import DocPages.Proofs.Page.Arranged
import DocPages.Proofs.Page.Failures
import DocPages.Proofs.Page.ListedMembers
import DocPages.Proofs.Page.PassLaws

/-!
# Separate listings of inherited members

Whether inherited members and extensions of other types are listed apart decides neither which pages
there are nor whether their contents can be made. It only spreads what a section lists over two.
-/

namespace DocPages

open Content

/-! ## Passes -/

namespace Pass

/-- The passes keep what is listed under a title without the characters of patterns and paths. -/
private theorem listedUnder_change {title : String}
    (plain : ∀ character ∈ title.toList, character ≠ '#' ∧ character ≠ '.' ∧ character ≠ '/')
    {pass : Pass} (isStandard : pass ∈ standard) (depth : Nat) (content : Node) :
    (content.mapAll (pass.change depth)).listedUnder title = content.listedUnder title := by
  have retouches := pass.retouches_change depth
  simp only [standard, List.mem_cons, List.not_mem_nil, or_false] at isStandard
  rcases isStandard with rfl | rfl | rfl
  · refine Node.listedUnder_mapAll retouches (fun node => ?_) (fun _ => Iff.rfl) content
    cases node with
    | group scope children => rw [change_briefBlocks_group]; rfl
    | _ => rfl
  · obtain ⟨visible, written⟩ := pathFrom_spec depth
    obtain ⟨foreign, others, path⟩ :=
      List.exists_cons_of_ne_nil (mt String.toList_eq_nil_iff.mp visible)
    have inPath : foreign ∈ (pathFrom rootPath depth).toList := path ▸ List.mem_cons_self
    have isHash : '#' ∈ rootPattern.toList := by decide
    have hashMissing : '#' ∉ title.toList := fun member => (plain _ member).1 rfl
    have foreignMissing : foreign ∉ title.toList := fun member =>
      (written foreign inPath).elim (plain _ member).2.1 (plain _ member).2.2
    refine Node.listedUnder_mapAll retouches (fun node => ?_)
      (fun _ => Text.replace_eq_iff isHash hashMissing inPath foreignMissing) content
    have blank : Text.replace rootPattern (pathFrom rootPath depth) "" = "" :=
      Text.replace_eq_self isHash (by simp) _
    cases node with
    | text scope body => rfl
    | link scope target children => cases target <;> exact blank.symm
    | _ => exact blank.symm
  · exact Node.listedUnder_mapAll retouches (fun _ => rfl) (fun _ => Iff.rfl) content

theorem listedUnder_finish {title : String}
    (plain : ∀ character ∈ title.toList, character ≠ '#' ∧ character ≠ '.' ∧ character ≠ '/')
    (depth : Nat) (content : Node) :
    (finish standard depth content).listedUnder title = content.listedUnder title := by
  have stays : ∀ passes : List Pass, (∀ pass ∈ passes, pass ∈ standard) → ∀ content : Node,
      (finish passes depth content).listedUnder title = content.listedUnder title := by
    intro passes areStandard
    induction passes with
    | nil => exact fun _ => rfl
    | cons pass passes ih =>
        obtain ⟨isStandard, areStandard⟩ := List.forall_mem_cons.mp areStandard
        exact fun content => (ih areStandard _).trans
          (listedUnder_change plain isStandard depth content)
  exact stays standard (fun _ => id) content

end Pass

/-- Finished contents list the members that they listed before. -/
private theorem Content.Node.ListsMembers.finish {content : Node} {separates : Bool}
    {functions properties : List Declaration}
    (lists : content.ListsMembers separates functions properties) (depth : Nat) :
    (Pass.finish Pass.standard depth content).ListsMembers separates functions properties := by
  have ownFunctions := Pass.listedUnder_finish
    (show ∀ character ∈ "Functions".toList, _ by simp) depth content
  have otherFunctions := Pass.listedUnder_finish
    (show ∀ character ∈ "Inherited functions".toList, _ by simp) depth content
  have ownProperties := Pass.listedUnder_finish
    (show ∀ character ∈ "Properties".toList, _ by simp) depth content
  have otherProperties := Pass.listedUnder_finish
    (show ∀ character ∈ "Inherited properties".toList, _ by simp) depth content
  constructor
  · rw [ownFunctions, otherFunctions]
    exact lists.functions
  · rw [ownProperties, otherProperties]
    exact lists.properties
  · rw [otherFunctions, otherProperties]
    exact lists.together

/-! ## Pages -/

/-- The first page shows separately what the second one shows together: the pages are for the same
declarations, and the two sections for functions of a page list what its one section for functions
lists, and so do those for properties. -/
structure Page.Separates (apart together : Page) : Prop where
  kind : apart.kind = together.kind
  name : apart.name = together.name
  dris : apart.dris = together.dris
  declarations : apart.declarations = together.declarations
  functions : apart.kind = .package ∨ apart.kind = .classlike → ∀ entry,
    entry ∈ apart.content.listedUnder "Functions" ∨
        entry ∈ apart.content.listedUnder "Inherited functions" ↔
      entry ∈ together.content.listedUnder "Functions"
  properties : apart.kind = .package ∨ apart.kind = .classlike → ∀ entry,
    entry ∈ apart.content.listedUnder "Properties" ∨
        entry ∈ apart.content.listedUnder "Inherited properties" ↔
      entry ∈ together.content.listedUnder "Properties"

namespace Page.Separates

/-- Contents that list the same members, apart and together. -/
private theorem of_listsMembers {subject : Subject} {content other : Node}
    {children below : List Page}
    (apart : subject.kind = .package ∨ subject.kind = .classlike →
      content.ListsMembers true subject.listedFunctions subject.listedProperties)
    (together : subject.kind = .package ∨ subject.kind = .classlike →
      other.ListsMembers false subject.listedFunctions subject.listedProperties) :
    Separates (subject.page content children) (subject.page other below) where
  kind := rfl
  name := rfl
  dris := rfl
  declarations := rfl
  functions isKind entry := by
    have inOne : entry ∈ other.listedUnder "Functions" ↔
        ∃ declaration ∈ subject.listedFunctions, declaration.listedVariant = entry := by
      simpa [((together isKind).together rfl).1] using (together isKind).functions entry
    exact ((apart isKind).functions entry).trans inOne.symm
  properties isKind entry := by
    have inOne : entry ∈ other.listedUnder "Properties" ↔
        ∃ declaration ∈ subject.listedProperties, declaration.listedVariant = entry := by
      simpa [((together isKind).together rfl).2] using (together isKind).properties entry
    exact ((apart isKind).properties entry).trans inOne.symm

end Page.Separates

/-! ## Modules -/

namespace ModuleDecl

section

variable (settings : Settings) (decl : ModuleDecl)

/-- The maker of the pages of a module that lists inherited members apart or not. -/
private def separatingMaker (separates : Bool) : PageMaker :=
  decl.pageMaker { settings with separateInherited := separates } []

/-- The setting does not move a page. -/
private theorem below_separatingMaker (separates : Bool) (subject : Subject) :
    (separatingMaker settings decl separates).below subject =
      (separatingMaker settings decl true).below subject := by
  cases subject <;> rfl

private theorem buildOrder_separatingMaker (separates : Bool) (subject : Subject) :
    (separatingMaker settings decl separates).buildOrder subject =
      (separatingMaker settings decl true).buildOrder subject := by
  induction subject using (separatingMaker settings decl true).belowInduction with
  | step subject ih =>
      rw [Arrangement.buildOrder_eq, Arrangement.buildOrder_eq, below_separatingMaker]
      exact congrArg (· ++ [subject]) (List.flatMap_congr ih)

private theorem failureOf?_generate_separating (separates : Bool) :
    failureOf? (decl.generate { settings with separateInherited := separates }) =
      failureOf? (decl.generate { settings with separateInherited := true }) := by
  have fails := fun separates => failureOf?_generateWith_eq decl
    { settings with separateInherited := separates } []
  have sameOrder := buildOrder_separatingMaker settings decl separates (.module decl)
  exact (fails separates).trans ((congrArg _ sameOrder).trans (fails true).symm)

/-- The tree of a module is arranged as ever, and lists members as the setting says. -/
private theorem arranges_of_generate_separating {separates : Bool} {generated : Generated}
    (success :
      decl.generate { settings with separateInherited := separates } = .ok generated) :
    (separatingMaker settings decl separates).Arranges
      (separatingMaker settings decl separates).ListsMembers (.module decl) generated.root :=
  arranges_of_generate (separatingMaker settings decl separates).ensures_listsMembers
    (fun depth _ _ lists isKind => (lists isKind).finish depth) success

end

/-- Whether a module lists inherited members apart does not decide whether its pages can be
generated. If they can, both trees have the same pages in the same places, and each page of the one
tree spreads what the page of the other one lists over two sections. -/
theorem separates_of_generate (settings : Settings) (decl : ModuleDecl) :
    ((∃ separated, decl.generate { settings with separateInherited := true } = .ok separated) ↔
      ∃ joined, decl.generate { settings with separateInherited := false } = .ok joined) ∧
    ∀ separated joined,
      decl.generate { settings with separateInherited := true } = .ok separated →
      decl.generate { settings with separateInherited := false } = .ok joined →
        separated.root.Corresponds Page.Separates joined.root := by
  refine ⟨?_, fun separated joined isSeparated isJoined => ?_⟩
  · rw [← failureOf?_eq_none_iff, ← failureOf?_eq_none_iff,
      failureOf?_generate_separating settings decl false]
  · exact (arranges_of_generate_separating settings decl isSeparated).corresponds
      (below_separatingMaker settings decl false)
      (fun _ _ _ _ _ => Page.Separates.of_listsMembers)
      (arranges_of_generate_separating settings decl isJoined)

/-- The class `Box` inherits its function `close`, which the trees list in different sections. -/
theorem separates_of_generate_shapes :
    ∃ separated joined, shapes.generate { separateInherited := true } = .ok separated ∧
      shapes.generate { separateInherited := false } = .ok joined ∧
      separated.root.Corresponds Page.Separates joined.root := by
  obtain ⟨separated, isSeparated⟩ := exists_generated_shapes { separateInherited := true }
  obtain ⟨joined, isJoined⟩ := exists_generated_shapes { separateInherited := false }
  have ⟨_, corresponds⟩ := separates_of_generate {} shapes
  exact ⟨separated, joined, isSeparated, isJoined,
    corresponds separated joined isSeparated isJoined⟩

end ModuleDecl

end DocPages
