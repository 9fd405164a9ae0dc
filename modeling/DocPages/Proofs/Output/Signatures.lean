import DocPages.Output.Markdown
import DocPages.Proofs.Collection.Neighbours
import DocPages.Proofs.Content.Collapsing
import DocPages.Proofs.Content.Texts
import DocPages.Proofs.Output.Drafts
import DocPages.Signature.Declaration

/-!
# Written signatures

A writer that meets signatures one after another remembers the last one that it wrote and leaves out
those that differ from it in their source sets alone. So signatures that read the same are written
once for each of their runs, and once altogether exactly if no other signature stands between them.
-/

namespace DocPages

open Content

namespace Content.Node

instance (left right : Node) : Decidable (left.AgreesElsewhere right) :=
  decidable_of_iff _ agreesElsewhere_iff.symm

/-- The signatures that differ from the one before them, and not only in source sets. -/
def withoutRepeats (signatures : List Node) : List Node :=
  signatures.destutter fun first second => ¬first.AgreesElsewhere second

/-- The signatures without those that differ from an earlier one in source sets alone. -/
def withoutCopies (signatures : List Node) : List Node := distinctBy comparedForm signatures

/-- No copy is left exactly if no other signature stands between two that agree. -/
theorem withoutRepeats_eq_withoutCopies_iff (signatures : List Node) :
    withoutRepeats signatures = withoutCopies signatures ↔
      ∀ first middle last, [first, middle, last].Sublist signatures →
        first.AgreesElsewhere last → first.AgreesElsewhere middle := by
  have repeats : withoutRepeats signatures = signatures.destutter fun first second =>
      first.comparedForm ≠ second.comparedForm := by
    simp only [withoutRepeats, agreesElsewhere_iff, ne_eq]
  rw [repeats, withoutCopies, destutter_eq_distinctBy_iff]
  simp only [agreesElsewhere_iff, List.sublist_map_iff]
  constructor
  · intro together first middle last between same
    refine (together first.comparedForm middle.comparedForm ⟨_, between, ?_⟩).symm
    rw [List.map_cons, List.map_cons, List.map_singleton, ← same]
  · rintro together value other ⟨between, isBetween, forms⟩
    obtain ⟨first, _, rfl, rfl, behind⟩ := List.map_eq_cons_iff.mp forms.symm
    obtain ⟨middle, _, rfl, rfl, atEnd⟩ := List.map_eq_cons_iff.mp behind
    obtain ⟨last, _, rfl, same, nothing⟩ := List.map_eq_cons_iff.mp atEnd
    obtain rfl := List.map_eq_nil_iff.mp nothing
    exact (together first middle last isBetween same.symm).symm

end Content.Node

namespace Markdown

/-- The text of a signature in code marks. -/
def codeText (signature : Node) : String := "`" ++ signature.textContent ++ "`"

/-- The node is a signature, and it has a text. -/
structure IsShownSignature (node : Node) : Prop where
  isSignature : isSignature node
  text : node.textContent ≠ ""

instance (node : Node) : Decidable (IsShownSignature node) :=
  decidable_of_iff (isSignature node ∧ node.textContent ≠ "")
    ⟨fun ⟨isSignature, text⟩ => ⟨isSignature, text⟩, fun ⟨isSignature, text⟩ => ⟨isSignature, text⟩⟩

variable {setting : Setting}

theorem IsShownSignature.write_eq {signature : Node} (shown : IsShownSignature signature) :
    write setting signature = .text (codeText signature) := by
  obtain ⟨isSignature, text⟩ := shown
  cases signature with
  | group scope children =>
      have isMonospace : scope.styles.contains .monospace := isSignature
      rw [write, if_pos isMonospace, signatureText, if_neg (mt String.isEmpty_iff.mp text)]
      rfl
  | _ => simp [Markdown.isSignature] at isSignature

private theorem breakParagraph_codeText (written : String) (signature : Node) :
    Writer.breakParagraph (written ++ codeText signature) =
      written ++ codeText signature ++ "\n\n" := by
  have characters : (codeText signature).toList =
      '`' :: signature.textContent.toList ++ ['`'] := by
    simp [codeText]
  have isLast : (codeText signature).toList.getLast? = some '`' := by
    rw [characters, List.getLast?_concat]
  exact Writer.breakParagraph_append isLast (by decide) written

/-- Behind a signature, those that do not repeat their predecessor are written, each as a paragraph
of its own. -/
private theorem writeAfter_signature (signature : Node) {signatures : List Node}
    (shown : ∀ other ∈ signatures, IsShownSignature other) (written : String) :
    Written.writeAfter (some signature.comparedForm) (writtenList setting signatures)
        (written ++ codeText signature) =
      written ++ String.intercalate "\n\n" ((signatures.destutter'
        (fun first second => ¬first.AgreesElsewhere second) signature).map codeText) := by
  induction signatures generalizing signature written with
  | nil => rfl
  | cons next signatures ih =>
      obtain ⟨nextShown, shown⟩ := List.forall_mem_cons.mp shown
      rw [writtenList, Written.writeAfter, if_pos nextShown.isSignature]
      by_cases repeated : signature.AgreesElsewhere next
      · have same := Node.agreesElsewhere_iff.mp repeated
        rw [List.destutter'_cons_neg _ (not_not.mpr repeated), if_pos (congrArg some same)]
        exact ih signature shown written
      · have different := mt Node.agreesElsewhere_iff.mpr repeated
        rw [List.destutter'_cons_pos _ repeated, if_neg (by simpa using different)]
        have written' : (write setting next ∘ Writer.breakParagraph)
            (written ++ codeText signature) =
              written ++ codeText signature ++ "\n\n" ++ codeText next := by
          rw [Function.comp_apply, breakParagraph_codeText, nextShown.write_eq]
          rfl
        rw [Option.isSome_some, if_pos rfl, Function.comp_apply, written', ih next shown,
          List.map_cons, String.intercalate_cons_of_ne_nil
            (mt List.map_eq_nil_iff.mp (List.destutter'_ne_nil _ _))]
        simp only [String.append_assoc]

/-- The text of signatures, each as a paragraph of its own. -/
def signaturesText (signatures : List Node) : String :=
  String.intercalate "\n\n" (signatures.map codeText)

/-- Of signatures one after another, those that do not repeat their predecessor are written. -/
theorem writeAll_signatures {signatures : List Node}
    (shown : ∀ signature ∈ signatures, IsShownSignature signature) :
    Written.writeAll (writtenList setting signatures) =
      .text (signaturesText (Node.withoutRepeats signatures)) := by
  funext written
  cases signatures with
  | nil => exact String.append_empty.symm
  | cons first signatures =>
      obtain ⟨firstShown, shown⟩ := List.forall_mem_cons.mp shown
      rw [Written.writeAll, writtenList, Written.writeAfter, if_pos firstShown.isSignature,
        if_neg (by simp), Option.isSome_none, if_neg Bool.false_ne_true, Function.comp_apply,
        Function.comp_apply, firstShown.write_eq]
      exact writeAfter_signature first shown written

/-- A group of signatures that is in code marks itself is one signature that joins their texts. In
any other group, the signatures that do not repeat their predecessor are written, each as a
paragraph of its own. So those that agree without source sets are written once, where the first of
them stands, exactly if no other signature stands between two that agree. -/
theorem write_signatures (setting : Setting) (scope : Scope) {signatures : List Node}
    (shown : ∀ signature ∈ signatures, IsShownSignature signature) :
    write setting (.group scope signatures) =
      (if scope.styles.contains .monospace then
        .text (signatureText (String.join (signatures.map Node.textContent)))
      else if isBlock scope then
        Writer.block (.text (signaturesText (Node.withoutRepeats signatures)))
      else .text (signaturesText (Node.withoutRepeats signatures))) ∧
    (Node.withoutRepeats signatures = Node.withoutCopies signatures ↔
      ∀ first middle last, [first, middle, last].Sublist signatures →
        first.AgreesElsewhere last → first.AgreesElsewhere middle) := by
  refine ⟨?_, Node.withoutRepeats_eq_withoutCopies_iff signatures⟩
  rw [write, Node.textContent_eq_join rfl, writeAll_signatures shown]
  rfl

/-- The surroundings of a page that is at the root of its tree. -/
private def rootSetting : Setting := { registry := .ofList [], depth := 0 }

/-- A function that is public in two source sets and internal in the one between them. -/
private def opened : Declaration :=
  let dri : Dri := { packageName := some "shapes", callable := some { name := "open" } }
  .function {
    common :=
      { dri, name := some "open"
        sourceSets := ⟨[⟨"shapes", "common"⟩, ⟨"shapes", "js"⟩, ⟨"shapes", "jvm"⟩]⟩ }
    visibility := ⟨[(⟨"shapes", "js"⟩, .internally)], by simp⟩ }

theorem write_signatures_opened :
    let signatures := Signature.nodesOf opened
    (∀ signature ∈ signatures, IsShownSignature signature) ∧
      write rootSetting (.group {} signatures) =
        .text (signaturesText (Node.withoutRepeats signatures)) ∧
      Node.withoutRepeats signatures = signatures ∧
      Node.withoutCopies signatures = signatures.take 2 :=
  have shown : ∀ signature ∈ Signature.nodesOf opened, IsShownSignature signature := by
    decide +kernel
  have ⟨written, _⟩ := write_signatures rootSetting {} shown
  ⟨shown, written, by decide +kernel, by decide +kernel⟩

/-- A signature is written again behind a different one, although it reads as one that is written
already. -/
theorem exists_signature_written_twice :
    let signatures := Signature.nodesOf opened
    (∀ signature ∈ signatures, IsShownSignature signature) ∧
      signaturesText (Node.withoutCopies signatures) =
        "`public fun open()`\n\n`internal fun open()`" ∧
      write rootSetting (.group {} signatures) "" =
        "`public fun open()`\n\n`internal fun open()`\n\n`public fun open()`" := by
  decide +kernel

end Markdown

end DocPages
