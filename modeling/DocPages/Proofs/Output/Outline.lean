import DocPages.Output.Outline
import DocPages.Proofs.Page.Correspondence
import DocPages.Proofs.Text.Splitting

/-!
# Reading outlines

An outline shows the shape of a page tree and the name and kind of every page, and nothing else. A
line is read from its end, because a name may look like the label of a kind but no label has a
parenthesis: the last opening one starts the label, and before it stand the indentation and the
name, which starts with the first character that is not a space. The depths of the lines tell the
parent of every page.
-/

namespace DocPages

/-- Lines without line feeds are told apart by the text that ends each with a line feed. -/
theorem Text.eq_of_written_lines_eq {left right : List (List Char)}
    (leftPlain : ∀ line ∈ left, '\n' ∉ line) (rightPlain : ∀ line ∈ right, '\n' ∉ line)
    (same : left.flatMap (· ++ ['\n']) = right.flatMap (· ++ ['\n'])) : left = right := by
  induction left generalizing right with
  | nil =>
      cases right with
      | nil => rfl
      | cons line right => simp at same
  | cons line left ih =>
      cases right with
      | nil => simp at same
      | cons other right =>
          obtain ⟨linePlain, leftPlain⟩ := List.forall_mem_cons.mp leftPlain
          obtain ⟨otherPlain, rightPlain⟩ := List.forall_mem_cons.mp rightPlain
          simp only [List.flatMap_cons, List.append_assoc, List.singleton_append] at same
          obtain ⟨sameLine, sameRest⟩ := separated_inj linePlain otherPlain same
          rw [sameLine, ih leftPlain rightPlain sameRest]

namespace PageKind

theorem label_injective : Function.Injective label := by
  intro left right same
  cases left <;> cases right <;> simp [label] at same ⊢

theorem parenthesis_notMem_label (kind : PageKind) : '(' ∉ kind.label.toList := by
  cases kind <;> decide

theorem lineFeed_notMem_label (kind : PageKind) : '\n' ∉ kind.label.toList := by
  cases kind <;> decide

end PageKind

namespace Page

/-! ## Lines -/

/-- An outline can show the name: it has no line feed and does not start with a space. -/
structure IsLegible (name : String) : Prop where
  lineFeed : '\n' ∉ name.toList
  flush : name.toList.head? ≠ some ' '

instance (name : String) : Decidable (IsLegible name) :=
  decidable_of_iff ('\n' ∉ name.toList ∧ name.toList.head? ≠ some ' ')
    ⟨fun ⟨lineFeed, flush⟩ => ⟨lineFeed, flush⟩, fun ⟨lineFeed, flush⟩ => ⟨lineFeed, flush⟩⟩

/-- The pages have one name and one kind. -/
structure SharesHeading (left right : Page) : Prop where
  name : left.name = right.name
  kind : left.kind = right.kind

/-- The line of a page in an outline without its line feed. -/
private def heading (depth : Nat) (page : Page) : List Char :=
  List.replicate (2 * depth) ' ' ++ page.name.toList ++
    ' ' :: '(' :: (page.kind.label.toList ++ [')'])

private theorem toList_outlineIndent (depth : Nat) :
    (outlineIndent depth).toList = List.replicate (2 * depth) ' ' := by
  induction depth with
  | zero => rfl
  | succ depth ih =>
      rw [outlineIndent, String.toList_join] at ih ⊢
      rw [List.replicate_succ, List.flatMap_cons, ih]
      rfl

private theorem toList_outlineLine (depth : Nat) (page : Page) :
    (page.outlineLine depth).toList = page.heading depth ++ ['\n'] := by
  simp [outlineLine, heading, toList_outlineIndent]

private theorem toList_outline (page : Page) :
    page.outline.toList =
      (page.walk.map fun visit => visit.2.heading visit.1).flatMap (· ++ ['\n']) := by
  simp [outline, String.toList_join, List.flatMap_map, toList_outlineLine]

private theorem lineFeed_notMem_heading {page : Page} (legible : IsLegible page.name)
    (depth : Nat) : '\n' ∉ page.heading depth := by
  simp [heading, legible.lineFeed, page.kind.lineFeed_notMem_label]

/-- A name that does not start with a space is told apart from the spaces before it. -/
private theorem indented_inj {left right : List Char} (leftFlush : left.head? ≠ some ' ')
    (rightFlush : right.head? ≠ some ' ') : (width other : Nat) →
    List.replicate width ' ' ++ left = List.replicate other ' ' ++ right →
      width = other ∧ left = right
  | 0, 0, same => ⟨rfl, same⟩
  | 0, other + 1, same => (leftFlush (by rw [← List.nil_append left]; exact same ▸ rfl)).elim
  | width + 1, 0, same => (rightFlush (by rw [← List.nil_append right]; exact same ▸ rfl)).elim
  | width + 1, other + 1, same => by
      simp only [List.replicate_succ, List.cons_append, List.cons.injEq, true_and] at same
      obtain ⟨sameWidth, sameName⟩ := indented_inj leftFlush rightFlush width other same
      exact ⟨congrArg Nat.succ sameWidth, sameName⟩

/-- A line tells the depth, the name and the kind of its page. -/
private theorem heading_inj {depth other : Nat} {left right : Page}
    (leftLegible : IsLegible left.name) (rightLegible : IsLegible right.name)
    (same : left.heading depth = right.heading other) :
    depth = other ∧ left.SharesHeading right := by
  have labelled : ∀ (depth : Nat) (page : Page), page.heading depth =
      (List.replicate (2 * depth) ' ' ++ page.name.toList ++ [' ']) ++
        '(' :: (page.kind.label.toList ++ [')']) := by simp [heading]
  have lastParenthesis : ∀ kind : PageKind, '(' ∉ kind.label.toList ++ [')'] := by
    simp [PageKind.parenthesis_notMem_label]
  rw [labelled, labelled] at same
  obtain ⟨sameFront, sameLabel⟩ := Text.separated_last_inj (lastParenthesis left.kind)
    (lastParenthesis right.kind) same
  obtain ⟨sameWidth, sameName⟩ := indented_inj leftLegible.flush rightLegible.flush _ _
    (List.append_cancel_right sameFront)
  have sameKind := PageKind.label_injective
    (String.toList_inj.mp (List.append_cancel_right sameLabel))
  exact ⟨by omega, String.toList_inj.mp sameName, sameKind⟩

/-! ## Outlines -/

private theorem headings_eq_of_beside {left right : List (Nat × Page)}
    (beside : List.Forall₂ (Beside SharesHeading) left right) :
    (left.map fun visit => visit.2.heading visit.1) =
      right.map fun visit => visit.2.heading visit.1 := by
  induction beside with
  | nil => rfl
  | cons first _ ih =>
      obtain ⟨sameDepth, sameName, sameKind⟩ := first
      rw [List.map_cons, List.map_cons, ih, heading, heading, sameDepth, sameName, sameKind]

private theorem beside_of_headings_eq {left right : List (Nat × Page)}
    (leftLegible : ∀ visit ∈ left, IsLegible visit.2.name)
    (rightLegible : ∀ visit ∈ right, IsLegible visit.2.name)
    (same : (left.map fun visit => visit.2.heading visit.1) =
      right.map fun visit => visit.2.heading visit.1) :
    List.Forall₂ (Beside SharesHeading) left right := by
  induction left generalizing right with
  | nil =>
      obtain rfl := List.map_eq_nil_iff.mp same.symm
      exact .nil
  | cons visit left ih =>
      obtain ⟨other, right, rfl, sameHeading, sameRest⟩ := List.map_eq_cons_iff.mp same.symm
      obtain ⟨visitLegible, leftLegible⟩ := List.forall_mem_cons.mp leftLegible
      obtain ⟨otherLegible, rightLegible⟩ := List.forall_mem_cons.mp rightLegible
      exact .cons (heading_inj visitLegible otherLegible sameHeading.symm)
        (ih leftLegible rightLegible sameRest.symm)

/-- Two page trees whose names can be shown have one outline exactly if they have one shape and the
pages in one place have one name and one kind. -/
theorem outline_eq_iff {left right : Page} (leftLegible : ∀ page ∈ left.all, IsLegible page.name)
    (rightLegible : ∀ page ∈ right.all, IsLegible page.name) :
    left.outline = right.outline ↔ left.Corresponds SharesHeading right := by
  have leftLegible := List.forall_mem_map.mp leftLegible
  have rightLegible := List.forall_mem_map.mp rightLegible
  rw [corresponds_iff_walk, ← String.toList_inj, toList_outline, toList_outline]
  constructor
  · intro same
    refine beside_of_headings_eq leftLegible rightLegible (Text.eq_of_written_lines_eq ?_ ?_ same)
    · exact List.forall_mem_map.mpr fun visit isVisit =>
        lineFeed_notMem_heading (leftLegible visit isVisit) visit.1
    · exact List.forall_mem_map.mpr fun visit isVisit =>
        lineFeed_notMem_heading (rightLegible visit isVisit) visit.1
  · intro beside
    rw [headings_eq_of_beside beside]

/-- A module without a name, with pages below it whose names look like labels. -/
private def mislabelled (content : Content.Node) : Page :=
  ⟨.module, "", content, {}, [], [⟨.package, "(module)", content, {}, [], []⟩,
    ⟨.allTypes, "All Types (all types)", content, {}, [], []⟩]⟩

theorem outline_eq_iff_mislabelled :
    let plain := mislabelled default
    let marked := mislabelled (.text {} "marked")
    (∀ page ∈ plain.all, IsLegible page.name) ∧ (∀ page ∈ marked.all, IsLegible page.name) ∧
      plain.outline = " (module)\n  (module) (package)\n  All Types (all types) (all types)\n" ∧
      plain.outline = marked.outline ∧ plain.Corresponds SharesHeading marked :=
  have plainLegible : ∀ page ∈ (mislabelled default).all, IsLegible page.name := by decide
  have markedLegible : ∀ page ∈ (mislabelled (.text {} "marked")).all, IsLegible page.name := by
    decide
  have same : (mislabelled default).outline = (mislabelled (.text {} "marked")).outline := by decide
  ⟨plainLegible, markedLegible, by decide, same,
    (outline_eq_iff plainLegible markedLegible).mp same⟩

end Page

end DocPages
