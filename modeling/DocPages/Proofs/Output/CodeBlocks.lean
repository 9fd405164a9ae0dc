import DocPages.Proofs.Output.Markdown
import DocPages.Proofs.Text.Paragraphs

/-!
# Code blocks

A code block that stands in the content of a page is in the Markdown text between its fences. The
last step of the text, which brings it in normal form, also tidies the lines of the block: it stays
as it is exactly if it is tidy.
-/

namespace DocPages

open Content

namespace Markdown

/-- A code block is written between its fences. -/
theorem hasBetween_codeBlock (language body written : String) :
    Text.HasBetween (codeBlock language body written) ("```" ++ language) body "```" := by
  have fenced : ("```" ++ language ++ "\n" ++ body ++ "\n```").toList.getLast? = some '`' := by
    rw [String.toList_append, List.getLast?_append]
    rfl
  refine ⟨Writer.breakParagraph written, "\n", Writer.atLineStart_breakParagraph written, ?_⟩
  have ended : codeBlock language body written =
      Writer.breakParagraph written ++ ("```" ++ language ++ "\n" ++ body ++ "\n```") ++ "\n\n" :=
    Writer.breakParagraph_append fenced (by decide) (Writer.breakParagraph written)
  have fence : "\n```" = "\n" ++ "```" := by decide
  rw [ended, fence, Text.emptyLine_eq]
  simp only [String.append_assoc]

/-- The code block of a child of a group is in the text of the group, unless the group is a
signature. -/
theorem hasBetween_write_group (setting : Setting) {scope : Scope} {children : List Node}
    (plain : ¬scope.styles.contains .monospace) {codeScope : Scope} {language : String}
    {texts : List Node} (isChild : .code codeScope language true texts ∈ children)
    (written : String) :
    Text.HasBetween (write setting (.group scope children) written) ("```" ++ language)
      (Node.code codeScope language true texts).textContent "```" := by
  obtain ⟨before, more, isText⟩ :=
    exists_write_group_eq setting plain isChild Bool.false_ne_true written
  have block := (hasBetween_codeBlock language
    (Node.code codeScope language true texts).textContent before).surround (.inl rfl) more
  rw [String.empty_append] at block
  rwa [isText, write, if_pos rfl]

end Markdown

namespace Page

theorem atLineStart_sectionText (registry : Registry) (page : Nat × Page) :
    Text.AtLineStart (sectionText registry page) := by
  refine .inr ⟨Markdown.write { registry, depth := page.1 } page.2.content "" ++ "\n", ?_⟩
  rw [sectionText, Text.emptyLine_eq, String.append_assoc]

/-- What stands between two lines in the text of a page does so in the text of its tree, where it is
tidied. -/
theorem hasBetween_markdown {registry : Registry} {root page : Page} {depth : Nat}
    (isPage : (depth, page) ∈ root.walk) {opening body closing : String}
    (opens : Text.IsSolid opening) (closes : Text.IsSolid closing)
    (between : Text.HasBetween (Markdown.write { registry, depth } page.content "") opening body
      closing) :
    Text.HasBetween (root.markdown registry) opening (Text.tidied body) closing := by
  rw [markdown_eq]
  refine Text.HasBetween.normalizeBlankLines ?_ opens closes
  obtain ⟨earlier, later, split⟩ := List.append_of_mem isPage
  have starts : Text.AtLineStart (String.join (earlier.map (sectionText registry))) :=
    Text.atLineStart_join (List.forall_mem_map.mpr fun page _ =>
      atLineStart_sectionText registry page)
  have whole := between.surround starts
    ("\n\n" ++ String.join (later.map (sectionText registry)))
  rw [split, List.map_append, List.map_cons, String.join_append, String.join_cons, sectionText]
  simpa only [String.append_assoc] using whole

/-- A fence is a line without blanks if its language has none. -/
theorem isSolid_fence {language : String} (unbroken : Text.IsUnbroken language) :
    Text.IsSolid ("```" ++ language) := by
  have marks : Text.IsUnbroken "```" := by decide
  refine ⟨fun nothing => by simpa using congrArg String.toList nothing, ?_⟩
  rw [Text.IsUnbroken, String.toList_append]
  exact List.forall_mem_append.mpr ⟨marks, unbroken⟩

/-- A code block among the children of a group, on any page of a tree, is in the Markdown text of
the tree between two lines that are its fences, unless the group is a signature. The blanks at the
ends of its lines are gone, and of neighbouring empty lines one is left, so the block is there as it
is exactly if it has nothing of the kind. -/
theorem codeBlock_of_markdown (registry : Registry) {root page : Page} {depth : Nat}
    (isPage : (depth, page) ∈ root.walk) {scope : Scope} {children : List Node}
    (isGroup : page.content = .group scope children) (plain : ¬scope.styles.contains .monospace)
    {codeScope : Scope} {language : String} {texts : List Node}
    (isChild : .code codeScope language true texts ∈ children)
    (unbroken : Text.IsUnbroken language) :
    let body := (Node.code codeScope language true texts).textContent
    Text.HasBetween (root.markdown registry) ("```" ++ language) (Text.tidied body) "```" ∧
      (Text.tidied body = body ↔ Text.IsTidy body) := by
  refine ⟨?_, Text.tidied_eq_self_iff⟩
  have closes : Text.IsSolid "```" := @isSolid_fence "" fun _ => nofun
  refine hasBetween_markdown isPage (isSolid_fence unbroken) closes ?_
  rw [isGroup]
  exact Markdown.hasBetween_write_group _ plain isChild ""

/-- A page with a code block in a group of some styles. -/
private def snippetPage (styles : OrderedSet Content.Style) (body : String) : Page :=
  { kind := .member, name := "open"
    content := .group { styles } [.code {} "kotlin" true [.text {} body]]
    dris := {}, declarations := [], children := [] }

theorem codeBlock_of_markdown_snippet :
    let page := snippetPage {} "val box = Box()\n\n  box.open()"
    (0, page) ∈ page.walk ∧
      Text.HasBetween (page.markdown (.ofList [])) "```kotlin" "val box = Box()\n\n  box.open()"
        "```" := by
  intro page
  have isPage : (0, page) ∈ page.walk := List.mem_cons_self
  have unbroken : Text.IsUnbroken "kotlin" := by decide
  obtain ⟨between, -⟩ := codeBlock_of_markdown (.ofList []) isPage rfl (by decide)
    List.mem_cons_self unbroken
  have kept : Text.tidied (Node.code {} "kotlin" true
      [.text {} "val box = Box()\n\n  box.open()"]).textContent =
        "val box = Box()\n\n  box.open()" := by
    decide +kernel
  exact ⟨isPage, kept ▸ between⟩

/-- A block with blanks at the end of a line and two empty lines is changed, and a group in code
marks has no fences. -/
theorem exists_codeBlock_changed :
    let untidy := "val box = Box() \n\n\n  box.open()"
    let tidy := "box.open()"
    '\r' ∉ untidy.toList ∧ '\r' ∉ tidy.toList ∧
      ¬Text.HasBetween ((snippetPage {} untidy).markdown (.ofList [])) "```kotlin" untidy "```" ∧
      ¬Text.HasBetween ((snippetPage ⟨[.monospace]⟩ tidy).markdown (.ofList [])) "```kotlin" tidy
        "```" := by
  intro untidy tidy
  refine ⟨by decide, by decide, mt Text.HasBetween.isInfix ?_, mt Text.HasBetween.isInfix ?_⟩
  · decide +kernel
  · decide +kernel

end Page

end DocPages
