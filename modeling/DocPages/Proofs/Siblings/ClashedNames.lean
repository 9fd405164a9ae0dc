import DocPages.Proofs.Siblings.Renaming
import DocPages.Proofs.Text.Splitting

/-!
# Clashed names

A clashed name is put together from marks and the declared name, and both can be read off it as long
as no mark holds what separates them. The extra mark of an identity is no part of the name, so
siblings that only their extra marks tell apart are given one name.
-/

namespace DocPages

namespace Declaration

variable {registry : Registry} {siblings : List Declaration}

/-! ## Marks and declared names -/

/-- The marks in the clashed name: those that the declaration states, or the display names of its
source sets if it states none. -/
def clashMarks (registry : Registry) (declaration : Declaration) : List String :=
  match declaration.extras.clashMarkers with
  | some (mark :: marks) => mark :: marks
  | _ => declaration.sourceSets.toList.map registry.displayName

/-- The declared name, which is empty if there is none. -/
def bareName (declaration : Declaration) : String :=
  declaration.name?.getD ""

theorem clashedName_eq (registry : Registry) (declaration : Declaration) :
    declaration.clashedName registry =
      "[" ++ String.intercalate ", " (declaration.clashMarks registry) ++ "]" ++
        declaration.bareName := by
  rw [clashedName, clashMarks, bareName]
  rcases declaration.extras.clashMarkers with _ | _ | _ <;> rfl

/-- A mark can be read off a clashed name. -/
structure IsPlainMark (mark : String) : Prop where
  nonempty : mark ≠ ""
  comma : ',' ∉ mark.toList
  bracket : ']' ∉ mark.toList

instance (mark : String) : Decidable (IsPlainMark mark) :=
  decidable_of_iff (mark ≠ "" ∧ ',' ∉ mark.toList ∧ ']' ∉ mark.toList)
    ⟨fun ⟨nonempty, comma, bracket⟩ => ⟨nonempty, comma, bracket⟩,
      fun ⟨nonempty, comma, bracket⟩ => ⟨nonempty, comma, bracket⟩⟩

private theorem toList_clashedName (registry : Registry) (declaration : Declaration) :
    (declaration.clashedName registry).toList =
      '[' :: ([',', ' '].intercalate ((declaration.clashMarks registry).map String.toList) ++
        ']' :: declaration.bareName.toList) := by
  rw [clashedName_eq]
  simp [String.toList_intercalate]

section

variable {marks : List String} (plain : ∀ mark ∈ marks, IsPlainMark mark)

include plain

private theorem bracket_notMem_marks :
    ']' ∉ [',', ' '].intercalate (marks.map String.toList) :=
  Text.notMem_intercalate (by decide)
    (List.forall_mem_map.mpr fun mark member => (plain mark member).bracket)

private theorem separable_marks : ∀ part ∈ marks.map String.toList, part ≠ [] ∧ ',' ∉ part :=
  List.forall_mem_map.mpr fun mark member =>
    ⟨mt String.toList_eq_nil_iff.mp (plain mark member).nonempty, (plain mark member).comma⟩

end

/-- A clashed name with plain marks tells the marks and the declared name. -/
theorem clashedName_eq_iff {left right : Declaration}
    (leftPlain : ∀ mark ∈ left.clashMarks registry, IsPlainMark mark)
    (rightPlain : ∀ mark ∈ right.clashMarks registry, IsPlainMark mark) :
    left.clashedName registry = right.clashedName registry ↔
      left.clashMarks registry = right.clashMarks registry ∧ left.bareName = right.bareName := by
  constructor
  · intro same
    rw [← String.toList_inj, toList_clashedName, toList_clashedName] at same
    -- The first closing bracket ends the marks, the commas in between end all but the last one.
    obtain ⟨sameMarks, sameName⟩ := Text.separated_inj (bracket_notMem_marks leftPlain)
      (bracket_notMem_marks rightPlain) (List.cons.inj same).2
    have sameParts := Text.intercalated_inj (separable_marks leftPlain)
      (separable_marks rightPlain) sameMarks
    exact ⟨List.map_injective_iff.mpr (fun _ _ => String.toList_inj.mp) sameParts,
      String.toList_inj.mp sameName⟩
  · rintro ⟨sameMarks, sameName⟩
    rw [clashedName_eq, clashedName_eq, sameMarks, sameName]

/-! ## Names that tell siblings apart -/

/-- The part is different in any two of the declarations that clash. -/
def TellsApart {β : Type} (part : Declaration → β) (declarations : List Declaration) : Prop :=
  declarations.Pairwise fun left right => left.Clashes right → part left ≠ part right

instance {β : Type} [DecidableEq β] (part : Declaration → β) (declarations : List Declaration) :
    Decidable (TellsApart part declarations) :=
  inferInstanceAs (Decidable (List.Pairwise _ _))

theorem tellsApart_congr {β γ : Type} {part : Declaration → β} {other : Declaration → γ}
    {declarations : List Declaration}
    (same : ∀ left ∈ declarations, ∀ right ∈ declarations,
      part left = part right ↔ other left = other right) :
    TellsApart part declarations ↔ TellsApart other declarations :=
  List.Pairwise.iff_of_mem fun isLeft isRight =>
    imp_congr_right fun _ => not_congr (same _ isLeft _ isRight)

/-- The clash-aware names are as different as the clashed names. -/
theorem tellsApart_clashAwareName_iff (registry : Registry)
    (declared : ∀ sibling ∈ siblings, sibling.isModule = false) :
    TellsApart (fun renamed => renamed.extras.clashAwareName) (renameClashing registry siblings) ↔
      TellsApart (clashedName registry) siblings := by
  have perm : (clashGroups siblings).flatten.Perm siblings := flatten_groupByFirstSeen_perm _ _
  rw [TellsApart, TellsApart, renameClashing_eq, List.pairwise_map,
    perm.pairwise_iff fun {left right} apart clashes => (apart clashes.symm).symm,
    List.pairwise_iff_forall_sublist, List.pairwise_iff_forall_sublist]
  have pairs : ∀ {left right : Declaration}, [left, right].Sublist siblings →
      (((renamedAmong registry siblings left).Clashes (renamedAmong registry siblings right) →
          (renamedAmong registry siblings left).extras.clashAwareName ≠
            (renamedAmong registry siblings right).extras.clashAwareName) ↔
        (left.Clashes right → left.clashedName registry ≠ right.clashedName registry)) := by
    intro left right pair
    rw [renamedAmong_clashes_iff, clashes_renamedAmong_iff]
    refine imp_congr_right fun clashes => ?_
    -- Both have a clashed name, since neither stands alone.
    obtain ⟨leftClashing, rightClashing⟩ := not_standsAlone_of_sublist pair clashes
    rw [(isRenamed_renamedAmong registry siblings left).clashing leftClashing
        (declared left (pair.subset (by simp))),
      (isRenamed_renamedAmong registry siblings right).clashing rightClashing
        (declared right (pair.subset (by simp)))]
    exact not_congr Option.some_inj
  exact ⟨fun apart => fun pair => (pairs pair).mp (apart pair),
    fun apart => fun pair => (pairs pair).mpr (apart pair)⟩

/-- The display names of the source sets of the declarations are different. -/
def ShownApart (registry : Registry) (declarations : List Declaration) : Prop :=
  let shown := declarations.flatMap fun declaration => declaration.sourceSets.toList
  ∀ first ∈ shown, ∀ second ∈ shown,
    registry.displayName first = registry.displayName second → first = second

instance (registry : Registry) (declarations : List Declaration) :
    Decidable (ShownApart registry declarations) :=
  inferInstanceAs (Decidable (∀ first ∈ _, ∀ second ∈ _, _))

/-- Declarations without marks of their own have the same marks exactly if they have the same
source sets, provided that these are shown apart. -/
theorem clashMarks_eq_iff {left right : Declaration}
    (unmarked : ∀ sibling ∈ siblings, sibling.extras.clashMarkers.getD [] = [])
    (shownApart : ShownApart registry siblings) (isLeft : left ∈ siblings)
    (isRight : right ∈ siblings) :
    left.clashMarks registry = right.clashMarks registry ↔ left.sourceSets = right.sourceSets := by
  have byName : ∀ sibling ∈ siblings, sibling.clashMarks registry =
      sibling.sourceSets.toList.map registry.displayName := by
    intro sibling member
    have none := unmarked sibling member
    rw [clashMarks]
    rcases marks : sibling.extras.clashMarkers with _ | _ | ⟨mark, others⟩
    · rfl
    · rfl
    · simp [marks] at none
  rw [byName left isLeft, byName right isRight]
  constructor
  · intro same
    refine congrArg OrderedSet.mk (eq_of_map_eq (fun first isFirst second isSecond => ?_) same)
    exact shownApart first (List.mem_flatMap_of_mem isLeft isFirst)
      second (List.mem_flatMap_of_mem isRight isSecond)
  · intro same
    rw [same]

/-- The clash-aware names of siblings, none of them a module, tell those that clash apart exactly as
far as their clashed names do. With plain marks, these do exactly if siblings that clash differ in
their marks or in their declared names, and where the marks are display names that show the source
sets apart, exactly if they differ in their source sets or in their declared names. The extra mark
of an identity does not count. -/
theorem tellsApart_renameClashing_iff (registry : Registry)
    (declared : ∀ sibling ∈ siblings, sibling.isModule = false) :
    let named := TellsApart (fun renamed => renamed.extras.clashAwareName)
      (renameClashing registry siblings)
    (named ↔ TellsApart (clashedName registry) siblings) ∧
      ((∀ sibling ∈ siblings, ∀ mark ∈ sibling.clashMarks registry, IsPlainMark mark) →
        (named ↔ TellsApart (fun sibling => (sibling.clashMarks registry, sibling.bareName))
          siblings) ∧
        ((∀ sibling ∈ siblings, sibling.extras.clashMarkers.getD [] = []) →
          ShownApart registry siblings →
          (named ↔ TellsApart (fun sibling => (sibling.sourceSets, sibling.bareName))
            siblings))) := by
  have byName := tellsApart_clashAwareName_iff registry declared
  refine ⟨byName, fun plain => ?_⟩
  have byMarks : TellsApart (clashedName registry) siblings ↔
      TellsApart (fun sibling => (sibling.clashMarks registry, sibling.bareName)) siblings := by
    refine tellsApart_congr fun left isLeft right isRight => ?_
    rw [Prod.mk.injEq]
    exact clashedName_eq_iff (plain left isLeft) (plain right isRight)
  refine ⟨byName.trans byMarks, fun unmarked shownApart =>
    (byName.trans byMarks).trans (tellsApart_congr fun left isLeft right isRight => ?_)⟩
  rw [Prod.mk.injEq, Prod.mk.injEq, clashMarks_eq_iff unmarked shownApart isLeft isRight]

/-- The function `open` on a platform, with an extra mark in its identity. -/
private def opening (platform : String) (extra : Option String) : Declaration :=
  .function
    { common :=
        { dri := { packageName := some "shapes", callable := some { name := "open" }, extra }
          name := some "open"
          sourceSets := .singleton ⟨"shapes", platform⟩ } }

/-- The platforms of `open` with their display names. -/
private def platforms : Registry :=
  .ofList [⟨⟨"shapes", "jvm"⟩, "JVM", .jvm⟩, ⟨⟨"shapes", "js"⟩, "JS", .js⟩]

/-- The two platforms of a function are told apart. -/
theorem tellsApart_renameClashing_iff_platforms :
    let siblings := [opening "jvm" none, opening "js" none]
    let renamed := renameClashing platforms siblings
    (∀ sibling ∈ siblings, sibling.isModule = false) ∧
      (∀ sibling ∈ siblings, ∀ mark ∈ sibling.clashMarks platforms, IsPlainMark mark) ∧
      (∀ sibling ∈ siblings, sibling.extras.clashMarkers.getD [] = []) ∧
      ShownApart platforms siblings ∧
      TellsApart (fun renamed => renamed.extras.clashAwareName) renamed ∧
      renamed.map (fun renamed => renamed.extras.clashAwareName) =
        [some "[JVM]open", some "[JS]open"] :=
  have declared : ∀ sibling ∈ [opening "jvm" none, opening "js" none],
      sibling.isModule = false := by decide
  have plain : ∀ sibling ∈ [opening "jvm" none, opening "js" none],
      ∀ mark ∈ sibling.clashMarks platforms, IsPlainMark mark := by decide
  have unmarked : ∀ sibling ∈ [opening "jvm" none, opening "js" none],
      sibling.extras.clashMarkers.getD [] = [] := by decide
  have shownApart : ShownApart platforms [opening "jvm" none, opening "js" none] := by decide
  have named := ((tellsApart_renameClashing_iff platforms declared).2 plain).2 unmarked shownApart
  ⟨declared, plain, unmarked, shownApart, named.mpr (by decide), by decide⟩

/-- Two functions on one platform that only their extra marks tell apart are given one name. -/
theorem exists_not_tellsApart :
    ∃ (registry : Registry) (siblings : List Declaration),
      (∀ sibling ∈ siblings, sibling.isModule = false) ∧
      (siblings.Pairwise fun left right =>
        ¬ (left.dri = right.dri ∧ left.sourceSets = right.sourceSets)) ∧
      ¬ TellsApart (fun renamed => renamed.extras.clashAwareName)
        (renameClashing registry siblings) :=
  ⟨platforms, [opening "jvm" (some "first"), opening "jvm" (some "second")], by decide, by decide,
    by decide⟩

end Declaration

end DocPages
