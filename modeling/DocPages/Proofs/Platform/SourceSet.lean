import DocPages.Exchange.SourceSet
import DocPages.Proofs.Text.Splitting

/-!
# Written identifiers of source sets

A text spells an identifier exactly if something stands on either side of its first slash, and it is
the written form of the identifier that it spells. The written form of an identifier spells it again
exactly if it has a scope, which holds no slash, and a name. So identifiers that texts spell are
told apart by their written forms, and an object that states values per source set repeats no key.
-/

namespace DocPages

namespace SourceSetId

/-- A text spells an identifier if it is the written form of it and the first slash of the text is
the one that ends the scope. -/
theorem ofText?_eq_some_iff {text : String} {id : SourceSetId} :
    ofText? text = some id ↔
      id.display = text ∧ id.scope ≠ "" ∧ '/' ∉ id.scope.toList ∧ id.name ≠ "" := by
  have slash : String.singleton '/' = "/" := rfl
  constructor
  · intro read
    rw [ofText?] at read
    split at read
    · rename_i scope name cut
      obtain ⟨rfl, noSlash⟩ := Text.splitOnce_eq_some_iff.mp cut
      split at read
      · cases read
      · rename_i present
        obtain rfl := Option.some.inj read
        have parts : scope ≠ "" ∧ name ≠ "" := by simpa using present
        exact ⟨by rw [display, slash], parts.1, noSlash, parts.2⟩
    · cases read
  · rintro ⟨rfl, hasScope, noSlash, hasName⟩
    have cut : Text.splitOnce '/' id.display = some (id.scope, id.name) :=
      Text.splitOnce_eq_some_iff.mpr ⟨by rw [display, slash], noSlash⟩
    simp [ofText?, cut, hasScope, hasName]

/-- A text spells an identifier if something stands on either side of its first slash. -/
theorem isSome_ofText?_iff {text : String} :
    (ofText? text).isSome ↔
      ∃ scope name : String, text = scope ++ "/" ++ name ∧ '/' ∉ scope.toList ∧ scope ≠ "" ∧
        name ≠ "" := by
  rw [Option.isSome_iff_exists]
  constructor
  · rintro ⟨id, read⟩
    obtain ⟨rfl, hasScope, noSlash, hasName⟩ := ofText?_eq_some_iff.mp read
    exact ⟨id.scope, id.name, rfl, noSlash, hasScope, hasName⟩
  · rintro ⟨scope, name, rfl, noSlash, hasScope, hasName⟩
    exact ⟨⟨scope, name⟩, ofText?_eq_some_iff.mpr ⟨rfl, hasScope, noSlash, hasName⟩⟩

/-- Identifiers that texts spell are told apart by their written forms. -/
theorem eq_of_display_eq {first second : SourceSetId} {text other : String}
    (firstRead : ofText? text = some first) (secondRead : ofText? other = some second)
    (same : first.display = second.display) : first = second := by
  obtain ⟨rfl, -⟩ := ofText?_eq_some_iff.mp firstRead
  obtain ⟨rfl, -⟩ := ofText?_eq_some_iff.mp secondRead
  rw [same, secondRead] at firstRead
  exact (Option.some.inj firstRead).symm

end SourceSetId

/-- No key of an object that states values per source set repeats, if texts spell the source
sets. -/
theorem Dependent.nodup_keys_toJson {α : Type} {map : Dependent α}
    (spelled : ∀ id ∈ map.keys, ∃ text, SourceSetId.ofText? text = some id) :
    (map.entries.map fun entry => entry.1.display).Nodup := by
  refine List.pairwise_map.mpr (map.ascending.imp_of_mem ?_)
  intro first second isFirst isSecond below same
  obtain ⟨text, firstRead⟩ := spelled first.1 (List.mem_map_of_mem isFirst)
  obtain ⟨other, secondRead⟩ := spelled second.1 (List.mem_map_of_mem isSecond)
  have equal := SourceSetId.eq_of_display_eq firstRead secondRead same
  simp [equal] at below

namespace SourceSetId

/-- A text spells an identifier exactly if something stands on either side of its first slash, and
the identifier is written as that text. What is written for an identifier spells it exactly if it
has a scope without a slash and a name. Different identifiers that texts spell are written
differently, so no object has one key for two of them. -/
theorem ofText?_inverts_display {α : Type} (encode : α → Json) :
    (∀ text, (ofText? text).isSome ↔
      ∃ scope name : String, text = scope ++ "/" ++ name ∧ '/' ∉ scope.toList ∧ scope ≠ "" ∧
        name ≠ "") ∧
    (∀ text id, ofText? text = some id → id.display = text) ∧
    (∀ id, ofText? id.display = some id ↔
      id.scope ≠ "" ∧ '/' ∉ id.scope.toList ∧ id.name ≠ "") ∧
    (∀ first second, (∃ text, ofText? text = some first) → (∃ text, ofText? text = some second) →
      first.display = second.display → first = second) ∧
    ∀ map : Dependent α, (∀ id ∈ map.keys, ∃ text, ofText? text = some id) →
      ∃ members, map.toJson encode = .ofMembers members ∧ (members.map Prod.fst).Nodup := by
  refine ⟨fun _ => isSome_ofText?_iff, fun _ _ read => (ofText?_eq_some_iff.mp read).1,
    fun _ => ?_, ?_, fun map spelled => ⟨_, rfl, ?_⟩⟩
  · rw [ofText?_eq_some_iff]
    exact and_iff_right rfl
  · rintro first second ⟨text, firstRead⟩ ⟨other, secondRead⟩ same
    exact eq_of_display_eq firstRead secondRead same
  · simpa [Function.comp_def] using Dependent.nodup_keys_toJson spelled

/-- The first slash of `app/jvm/main` ends the scope `app`. A map with a value for `jvm/main` and
one for `js` in that scope is written with two keys. -/
theorem ofText?_inverts_display_nested :
    ofText? "app/jvm/main" = some ⟨"app", "jvm/main"⟩ ∧
      display ⟨"app", "jvm/main"⟩ = "app/jvm/main" ∧
      (∃ text, ofText? text = some ⟨"app", "js"⟩) ∧
      let map : Dependent Bool := .ofList [(⟨"app", "jvm/main"⟩, true), (⟨"app", "js"⟩, false)]
      ∃ members, map.toJson .bool = .ofMembers members ∧ (members.map Prod.fst).Nodup := by
  have nested : ofText? "app/jvm/main" = some ⟨"app", "jvm/main"⟩ := by decide +kernel
  have single : ofText? "app/js" = some ⟨"app", "js"⟩ := by decide +kernel
  obtain ⟨-, written, -, -, unrepeated⟩ := ofText?_inverts_display Json.bool
  refine ⟨nested, written _ _ nested, ⟨_, single⟩, unrepeated _ fun id isKey => ?_⟩
  have listed : id = ⟨"app", "js"⟩ ∨ id = ⟨"app", "jvm/main"⟩ := by
    have keys : (Dependent.ofList
        [((⟨"app", "jvm/main"⟩ : SourceSetId), true), (⟨"app", "js"⟩, false)]).keys =
          [⟨"app", "js"⟩, ⟨"app", "jvm/main"⟩] := by decide +kernel
    simpa [keys] using isKey
  rcases listed with rfl | rfl
  · exact ⟨_, single⟩
  · exact ⟨_, nested⟩

end SourceSetId

end DocPages
