import DocPages.Output.Draft
import DocPages.Proofs.Text.Paragraphs

/-!
# Laws of drafts

A step of writing appends: whatever is written already stays as it is. Ending a paragraph leaves
nothing, or a text whose last line is empty.
-/

namespace DocPages

namespace Markdown

namespace Writer

/-- The step writes behind what is written already. -/
def Appends (writer : Writer) : Prop :=
  ∀ written, ∃ more, writer written = written ++ more

theorem appends_id : Appends id := fun _ => ⟨"", String.append_empty.symm⟩

theorem appends_ite {condition : Prop} [Decidable condition] {writer : Writer}
    (appends : writer.Appends) : Appends (if condition then writer else id) := by
  split
  · exact appends
  · exact appends_id

theorem appends_getD {α : Type} {part : Option α} {step : α → Writer}
    (each : ∀ element ∈ part, (step element).Appends) : ((part.map step).getD id).Appends := by
  cases part with
  | none => exact appends_id
  | some element => exact each element rfl

theorem appends_text (body : String) : (text body).Appends := fun _ => ⟨body, rfl⟩

theorem appends_breakParagraph : breakParagraph.Appends := by
  intro written
  rw [breakParagraph]
  split
  · exact appends_id written
  · exact ⟨"\n\n", rfl⟩

theorem Appends.comp {first second : Writer} (secondAppends : second.Appends)
    (firstAppends : first.Appends) : Appends (second ∘ first) := by
  intro written
  obtain ⟨early, afterFirst⟩ := firstAppends written
  obtain ⟨late, afterSecond⟩ := secondAppends (first written)
  refine ⟨early ++ late, ?_⟩
  rw [Function.comp_apply, afterSecond, afterFirst, String.append_assoc]

theorem Appends.block {body : Writer} (appends : body.Appends) : body.block.Appends :=
  appends_breakParagraph.comp (appends.comp appends_breakParagraph)

theorem appends_foldl {α : Type} {elements : List α} {step : α → Writer}
    (each : ∀ element ∈ elements, (step element).Appends) :
    Appends fun written =>
      elements.foldl (fun written element => step element written) written := by
  induction elements with
  | nil => exact appends_id
  | cons head tail ih =>
      obtain ⟨headAppends, tailAppends⟩ := List.forall_mem_cons.mp each
      exact (ih tailAppends).comp headAppends

/-- After the end of a paragraph there is nothing, or the last line is empty. -/
theorem breakParagraph_spec (written : String) :
    breakParagraph written = "" ∨ ∃ front, breakParagraph written = front ++ "\n\n" := by
  rw [breakParagraph]
  split
  · rename_i ended
    rw [Bool.or_eq_true, String.isEmpty_iff, List.isSuffixOf_iff_suffix] at ended
    refine ended.imp_right fun ⟨front, isFront⟩ => ⟨String.ofList front, ?_⟩
    rw [← String.toList_inj, ← isFront]
    simp
  · exact .inr ⟨written, rfl⟩

theorem atLineStart_breakParagraph (written : String) :
    Text.AtLineStart (breakParagraph written) := by
  rcases breakParagraph_spec written with nothing | ⟨front, ended⟩
  · exact .inl nothing
  · refine .inr ⟨front ++ "\n", ?_⟩
    rw [ended, Text.emptyLine_eq, String.append_assoc]

/-- A paragraph that does not end in a line feed ends with an empty line. -/
theorem breakParagraph_append {body : String} {last : Char}
    (isLast : body.toList.getLast? = some last) (noFeed : last ≠ '\n') (written : String) :
    breakParagraph (written ++ body) = written ++ body ++ "\n\n" := by
  have ends : (written ++ body).toList.getLast? = some last := by
    rw [String.toList_append, List.getLast?_append, isLast, Option.some_or]
  have present : ¬(written ++ body).isEmpty := by
    rw [String.isEmpty_iff]
    intro empty
    simp [empty] at ends
  have unended : ¬"\n\n".toList.isSuffixOf (written ++ body).toList := by
    rw [List.isSuffixOf_iff_suffix]
    rintro ⟨front, split⟩
    rw [← split, List.getLast?_append] at ends
    exact noFeed (Option.some.inj ends).symm
  rw [breakParagraph, if_neg]
  rw [Bool.or_eq_true, not_or]
  exact ⟨present, unended⟩

end Writer

end Markdown

end DocPages
