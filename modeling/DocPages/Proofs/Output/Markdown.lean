import DocPages.Collection.Elementwise
import DocPages.Output.Markdown
import DocPages.Proofs.Content.Collapsing
import DocPages.Proofs.Content.Links
import DocPages.Proofs.Output.Drafts

/-!
# Laws of Markdown writing

Every node is written behind what is written already, whatever stands there. So what a node of a
group has written stays in the text of the group.
-/

namespace DocPages

open Content

namespace Markdown

variable {setting : Setting}

/-! ## Written nodes -/

theorem writtenList_eq_map (nodes : List Node) :
    writtenList setting nodes = nodes.map fun node => { node, write := write setting node } :=
  eq_map_of_cons (by rw [writtenList]) (fun _ _ => by rw [writtenList]) nodes

theorem forall_mem_writtenList {nodes : List Node} {holds : Written → Prop} :
    (∀ part ∈ writtenList setting nodes, holds part) ↔
      ∀ node ∈ nodes, holds { node, write := write setting node } := by
  rw [writtenList_eq_map, List.forall_mem_map]

namespace Written

/-- Parts that are written behind what is there are so one after another. -/
theorem appends_writeAfter {parts : List Written} (each : ∀ part ∈ parts, part.write.Appends)
    (signature : Option Node) : (writeAfter signature parts).Appends := by
  induction parts generalizing signature with
  | nil => exact Writer.appends_id
  | cons part parts ih =>
      obtain ⟨partAppends, partsAppend⟩ := List.forall_mem_cons.mp each
      rw [writeAfter]
      split
      · dsimp only
        split
        · exact ih partsAppend signature
        · exact (ih partsAppend _).comp
            (partAppends.comp (Writer.appends_ite Writer.appends_breakParagraph))
      · exact (ih partsAppend none).comp partAppends

/-- What a part has written stays, unless the part is a signature that may be a repetition. -/
theorem exists_writeAfter_eq {parts : List Written} (each : ∀ part ∈ parts, part.write.Appends)
    {part : Written} (member : part ∈ parts) (noSignature : ¬isSignature part.node)
    (signature : Option Node) (written : String) :
    ∃ before more, writeAfter signature parts written = part.write before ++ more := by
  induction parts generalizing signature written with
  | nil => exact (List.not_mem_nil member).elim
  | cons head tail ih =>
      obtain ⟨-, tailAppends⟩ := List.forall_mem_cons.mp each
      rw [writeAfter]
      rcases List.mem_cons.mp member with rfl | later
      · rw [if_neg noSignature]
        exact ⟨written, appends_writeAfter tailAppends none (part.write written)⟩
      · split
        · dsimp only
          split
          · exact ih tailAppends later signature written
          · exact ih tailAppends later _ _
        · exact ih tailAppends later none _

end Written

/-! ## Tables -/

theorem appends_tableWriter (caption : Option String) (titles : List String)
    (rows : List (List String)) : (tableWriter caption titles rows).Appends := by
  rw [tableWriter]
  split
  · exact Writer.appends_id
  · apply Writer.Appends.block
    cases caption with
    | none => exact Writer.appends_text _
    | some caption =>
        exact (Writer.appends_text _).comp
          (Writer.appends_breakParagraph.comp (Writer.appends_text caption))

/-! ## Rows -/

/-- All parts of an instance are written behind what is there. -/
structure InstanceAppends (entry : Instance Written) : Prop where
  before : ∀ part ∈ entry.before, part.write.Appends
  divergent : ∀ part ∈ entry.divergent, part.write.Appends
  after : ∀ part ∈ entry.after, part.write.Appends

theorem appends_variantWriter (hinted : Bool) {variant : UnitedVariant Written}
    (appends : variant.content.write.Appends) : (variantWriter setting hinted variant).Appends :=
  appends.comp ((Writer.appends_ite (Writer.appends_text _)).comp Writer.appends_breakParagraph)

/-- A row is written behind what is there if what it takes from its instances is. -/
theorem appends_collapsedWriter {instances : List (Instance Written)}
    (each : ∀ entry ∈ instances, InstanceAppends entry) {row : CollapsedInstances Written}
    (isRow : row ∈ collapse Written.node instances) (hinted : Bool) :
    (collapsedWriter setting hinted row).Appends := by
  obtain ⟨first, found, before, after⟩ := firstOfRow_of_mem_collapse isRow
  have firstAppends := each first (List.mem_of_find?_eq_some found)
  have variants : ∀ variant ∈ row.variants, variant.content.write.Appends := by
    intro variant isVariant
    obtain ⟨lender, found, content, -⟩ := united_of_mem_variants isRow isVariant
    exact (each lender (List.mem_of_find?_eq_some found)).divergent _ content
  refine Writer.appends_breakParagraph.comp (.comp ?_ (.comp ?_ ?_))
  · exact Writer.appends_getD fun part isPart =>
      (firstAppends.after part (after ▸ isPart)).comp Writer.appends_breakParagraph
  · exact Writer.appends_foldl fun variant isVariant =>
      appends_variantWriter _ (variants variant isVariant)
  · exact Writer.appends_getD fun part isPart => firstAppends.before part (before ▸ isPart)

/-! ## All nodes -/

theorem writtenPart_appends {part : Option Node}
    (each : ∀ node ∈ part, (write setting node).Appends) :
    ∀ written ∈ writtenPart setting part, written.write.Appends := by
  cases part with
  | none => exact fun _ => nofun
  | some node =>
      rintro written ⟨⟩
      exact each node rfl

theorem forall_mem_children_divergentInstance {scope : Scope} {before divergent after : Option Node}
    {holds : Node → Prop} :
    (∀ part ∈ (Node.divergentInstance scope before divergent after).children, holds part) ↔
      (∀ part ∈ before, holds part) ∧ (∀ part ∈ divergent, holds part) ∧
        ∀ part ∈ after, holds part := by
  simp only [Node.children, List.forall_mem_append, Option.mem_toList, and_assoc]
  rfl

theorem writtenInstances_append {nodes : List Node}
    (each : ∀ node ∈ nodes, ∀ part ∈ node.children, (write setting part).Appends) :
    ∀ entry ∈ writtenInstances setting nodes, InstanceAppends entry := by
  induction nodes with
  | nil => exact fun _ => nofun
  | cons head tail ih =>
      obtain ⟨parts, others⟩ := List.forall_mem_cons.mp each
      cases head with
      | divergentInstance scope before divergent after =>
          obtain ⟨beforeAppends, divergentAppends, afterAppends⟩ :=
            forall_mem_children_divergentInstance.mp parts
          exact List.forall_mem_cons.mpr ⟨⟨writtenPart_appends beforeAppends,
            writtenPart_appends divergentAppends, writtenPart_appends afterAppends⟩, ih others⟩
      | _ => exact ih others

/-- Every node is written behind what is there. -/
theorem appends_write (setting : Setting) (node : Node) : (write setting node).Appends := by
  -- A divergent group writes the parts of its children.
  suffices both : (write setting node).Appends ∧
      ∀ child ∈ node.children, (write setting child).Appends from both.1
  induction node using Node.childInduction with
  | step node ih =>
      refine ⟨?_, fun child isChild => (ih child isChild).1⟩
      cases node with
      | text scope body => exact Writer.appends_text _
      | lineBreak scope => exact Writer.appends_text _
      | group scope children =>
          have children : (Written.writeAll (writtenList setting children)).Appends :=
            Written.appends_writeAfter
              (forall_mem_writtenList.mpr fun child isChild => (ih child isChild).1) none
          rw [write]
          split
          · exact Writer.appends_text _
          · split
            · exact children.block
            · exact children
      | header scope level children => exact (Writer.appends_text _).block
      | code scope language isBlock children =>
          rw [write]
          split
          · exact (Writer.appends_text _).block
          · exact Writer.appends_text _
      | link scope target children => exact Writer.appends_text _
      | table scope caption titles rows => exact appends_tableWriter _ _ _
      | list scope ordered children => exact (Writer.appends_text _).block
      | divergentGroup scope groupId hinted children =>
          exact Writer.appends_foldl fun row isRow => appends_collapsedWriter
            (writtenInstances_append fun child isChild => (ih child isChild).2) isRow hinted
      | divergentInstance scope before divergent after =>
          obtain ⟨beforeAppends, divergentAppends, afterAppends⟩ :=
            forall_mem_children_divergentInstance.mp fun part isPart => (ih part isPart).1
          refine Written.appends_writeAfter ?_ none
          simp only [List.forall_mem_append, Option.mem_toList]
          exact ⟨⟨writtenPart_appends beforeAppends, writtenPart_appends divergentAppends⟩,
            writtenPart_appends afterAppends⟩
      | platformHinted scope inner =>
          exact (ih inner List.mem_cons_self).1.comp (Writer.appends_ite (Writer.appends_text _))

/-! ## Children of groups -/

/-- What a child of a group has written stays in the text of the group, unless the child is a
signature or the group itself is one. -/
theorem exists_write_group_eq (setting : Setting) {scope : Scope} {children : List Node}
    {child : Node} (plain : ¬scope.styles.contains .monospace) (isChild : child ∈ children)
    (noSignature : ¬isSignature child) (written : String) :
    ∃ before more, write setting (.group scope children) written =
      write setting child before ++ more := by
  have appends : ∀ part ∈ writtenList setting children, part.write.Appends :=
    forall_mem_writtenList.mpr fun child _ => appends_write setting child
  have isPart : { node := child, write := write setting child } ∈ writtenList setting children := by
    rw [writtenList_eq_map]
    exact List.mem_map_of_mem isChild
  have kept := Written.exists_writeAfter_eq appends isPart noSignature none
  rw [write, if_neg plain]
  split
  · obtain ⟨before, more, isText⟩ := kept (Writer.breakParagraph written)
    obtain ⟨ending, isEnded⟩ := Writer.appends_breakParagraph (write setting child before ++ more)
    refine ⟨before, more ++ ending, ?_⟩
    rw [Writer.block, Function.comp_apply, Function.comp_apply, Written.writeAll, isText, isEnded,
      String.append_assoc]
  · exact kept written

end Markdown

namespace Page

/-- The text of a page with its depth, ended by an empty line. -/
def sectionText (registry : Registry) : Nat × Page → String
  | (depth, page) => Markdown.write { registry, depth } page.content "" ++ "\n\n"

theorem markdown_eq (registry : Registry) (page : Page) :
    page.markdown registry =
      Text.normalizeBlankLines (String.join (page.walk.map (sectionText registry))) := rfl

end Page

end DocPages
