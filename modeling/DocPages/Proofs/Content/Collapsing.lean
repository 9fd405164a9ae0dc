import DocPages.Content.Variants
import DocPages.Proofs.Collection.Grouping
import DocPages.Proofs.Collection.OrderedSet

/-!
# Collapsed variants

Collapsing the instances of a row neither loses, invents nor repeats a variant. Rows and variants
are the keys of the instances in order of first appearance: the surroundings of an instance without
source sets are the key of its row, and what it distinguishes without source sets is the key of its
variant in the row. The first instance of a key lends its content, and all of them their source
sets.
-/

namespace DocPages

namespace Content

/-! ## Content up to source sets -/

/-- The trees agree without their source sets. -/
def Node.AgreesElsewhere (left right : Node) : Prop :=
  left.withoutSourceSets.agrees right.withoutSourceSets

theorem Node.agreesElsewhere_iff {left right : Node} :
    left.AgreesElsewhere right ↔ left.comparedForm = right.comparedForm := by
  rw [AgreesElsewhere, agrees, beq_iff_eq, comparedForm, comparedForm]

variable {α : Type} (node : α → Node)

/-- Both parts are missing, or they agree without source sets. -/
def PartsAgree : Option α → Option α → Prop
  | none, none => True
  | some left, some right => (node left).AgreesElsewhere (node right)
  | _, _ => False

/-- The instance has the surroundings of the row. -/
structure Instance.Surrounds (entry : Instance α) (row : CollapsedInstances α) : Prop where
  before : PartsAgree node entry.before row.before
  after : PartsAgree node entry.after row.after

/-- The instance belongs to the variant of the row. -/
structure Instance.FallsInto (entry : Instance α) (row : CollapsedInstances α)
    (variant : UnitedVariant α) : Prop where
  surrounds : entry.Surrounds node row
  divergent : PartsAgree node entry.divergent (some variant.content)

/-- What a part is compared by. -/
def comparedPart (part : Option α) : Option Node := part.map (comparedContent node)

/-- What an instance finds its row by. -/
def Instance.surroundings (entry : Instance α) : Option Node × Option Node :=
  (comparedPart node entry.before, comparedPart node entry.after)

/-- What a row is found by. -/
def CollapsedInstances.surroundings (row : CollapsedInstances α) : Option Node × Option Node :=
  (comparedPart node row.before, comparedPart node row.after)

section

variable {node}

theorem partsAgree_iff {left right : Option α} :
    PartsAgree node left right ↔ comparedPart node left = comparedPart node right := by
  cases left <;> cases right <;>
    simp [PartsAgree, comparedPart, comparedContent, Node.agreesElsewhere_iff]

theorem Instance.surrounds_iff {entry : Instance α} {row : CollapsedInstances α} :
    entry.Surrounds node row ↔ entry.surroundings node = row.surroundings node := by
  rw [surroundings, CollapsedInstances.surroundings, Prod.mk.injEq, ← partsAgree_iff,
    ← partsAgree_iff]
  exact ⟨fun surrounds => ⟨surrounds.before, surrounds.after⟩, fun ⟨before, after⟩ =>
    ⟨before, after⟩⟩

theorem Instance.fallsInto_iff {entry : Instance α} {row : CollapsedInstances α}
    {variant : UnitedVariant α} :
    entry.FallsInto node row variant ↔ entry.surroundings node = row.surroundings node ∧
      comparedPart node entry.divergent = some (comparedContent node variant.content) := by
  rw [← surrounds_iff, ← Option.map_some, ← comparedPart, ← partsAgree_iff]
  exact ⟨fun falls => ⟨falls.surrounds, falls.divergent⟩, fun ⟨surrounds, divergent⟩ =>
    ⟨surrounds, divergent⟩⟩

end

instance (entry : Instance α) (row : CollapsedInstances α) : Decidable (entry.Surrounds node row) :=
  decidable_of_iff _ Instance.surrounds_iff.symm

instance (entry : Instance α) (row : CollapsedInstances α) (variant : UnitedVariant α) :
    Decidable (entry.FallsInto node row variant) :=
  decidable_of_iff _ Instance.fallsInto_iff.symm

/-- The variants of some rows, each with its row. -/
def placedVariants (rows : List (CollapsedInstances α)) :
    List (CollapsedInstances α × UnitedVariant α) :=
  rows.flatMap fun row => row.variants.map (row, ·)

/-- The rows show the variants of the instances once, each for all source sets that it has. -/
structure Collapses (instances : List (Instance α)) (rows : List (CollapsedInstances α)) :
    Prop where
  /-- Rows differ in what stands before or after them, and not only in source sets. -/
  rowsApart : rows.Pairwise fun first second =>
    ¬(PartsAgree node first.before second.before ∧ PartsAgree node first.after second.after)
  /-- The variants of a row differ, and not only in source sets. -/
  variantsApart : ∀ row ∈ rows, row.variants.Pairwise fun first second =>
    ¬(node first.content).AgreesElsewhere (node second.content)
  rowOfInstance : ∀ entry ∈ instances, ∃ row ∈ rows, entry.Surrounds node row
  variantOfInstance : ∀ entry ∈ instances, entry.divergent.isSome →
    (placedVariants rows).countP (fun placed => entry.FallsInto node placed.1 placed.2) = 1
  /-- A row has the surroundings of its first instance. -/
  firstOfRow : ∀ row ∈ rows, ∃ first,
    instances.find? (fun entry => entry.Surrounds node row) = some first ∧
      row.before = first.before ∧ row.after = first.after
  /-- A variant has the content of its first instance. -/
  firstOfVariant : ∀ row ∈ rows, ∀ variant ∈ row.variants, ∃ first,
    instances.find? (fun entry => entry.FallsInto node row variant) = some first ∧
      first.divergent = some variant.content
  /-- A variant applies where one of its instances does. -/
  sourceSets : ∀ row ∈ rows, ∀ variant ∈ row.variants, ∀ id,
    id ∈ variant.sourceSets.toList ↔
      ∃ entry ∈ instances, entry.FallsInto node row variant ∧ id ∈ entry.sourceSets.toList
  /-- The source sets of a variant are in order, each once. -/
  ascending : ∀ row ∈ rows, ∀ variant ∈ row.variants,
    variant.sourceSets.toList.Pairwise fun first second => compare first second = .lt
  rowOrder : rows.Pairwise fun earlier later =>
    instances.findIdx (fun entry => entry.Surrounds node earlier) <
      instances.findIdx (fun entry => entry.Surrounds node later)
  variantOrder : ∀ row ∈ rows, row.variants.Pairwise fun earlier later =>
    instances.findIdx (fun entry => entry.FallsInto node row earlier) <
      instances.findIdx (fun entry => entry.FallsInto node row later)

/-! ## Variants of a row -/

/-- The variant that an instance contributes to the row with the given surroundings. -/
def Instance.variantIn? (key : Option Node × Option Node) (entry : Instance α) :
    Option (UnitedVariant α) :=
  if entry.surroundings node = key then
    entry.divergent.map fun content => { sourceSets := entry.sourceSets, content }
  else none

/-- What a variant is found by in its row. -/
def UnitedVariant.key (variant : UnitedVariant α) : Node := comparedContent node variant.content

/-- The variants that instances contribute to the row with the given surroundings. -/
def variantsIn (key : Option Node × Option Node) (instances : List (Instance α)) :
    List (UnitedVariant α) :=
  instances.filterMap (Instance.variantIn? node key)

/-- The row with the given surroundings, if an instance has them. -/
def collapsedRow (instances : List (Instance α)) (key : Option Node × Option Node) :
    CollapsedInstances α :=
  let first := instances.find? fun entry => entry.surroundings node = key
  { before := first.bind Instance.before
    variants := (groupByFirstSeen (UnitedVariant.key node)
      (variantsIn node key instances)).filterMap uniteVariants
    after := first.bind Instance.after }

/-- The rows are those of the surroundings of the instances, in order of first appearance. -/
theorem collapse_eq (instances : List (Instance α)) :
    collapse node instances =
      (keysInOrder (Instance.surroundings node) instances).map (collapsedRow node instances) := by
  have variants : ∀ key, unitedVariants node
      (instances.filter fun entry => entry.surroundings node = key) =
        (collapsedRow node instances key).variants := by
    intro key
    simp only [unitedVariants, collapsedRow, variantsIn, List.filterMap_filter,
      decide_eq_true_eq]
    rfl
  have rows : collapse node instances =
      (groupByFirstSeen (Instance.surroundings node) instances).map fun group =>
        { before := group.head?.bind Instance.before
          variants := unitedVariants node group
          after := group.head?.bind Instance.after } := rfl
  rw [rows, groupByFirstSeen, groupByFirstSeenKeyed_eq, List.map_map, List.map_map]
  refine List.map_congr_left fun key _ => ?_
  simp only [Function.comp_apply, variants, List.head?_filter]
  rfl

variable {node} {instances : List (Instance α)}

theorem surroundings_collapsedRow {key : Option Node × Option Node}
    (isKey : key ∈ keysInOrder (Instance.surroundings node) instances) :
    (collapsedRow node instances key).surroundings node = key := by
  obtain ⟨first, found, ofFirst⟩ := exists_find?_of_mem_keysInOrder isKey
  rw [CollapsedInstances.surroundings, collapsedRow]
  simp only [found, Option.bind_some]
  exact ofFirst

/-- Rows are found by different surroundings, in order of first appearance. -/
theorem map_surroundings_collapse :
    (collapse node instances).map (CollapsedInstances.surroundings node) =
      keysInOrder (Instance.surroundings node) instances := by
  rw [collapse_eq, List.map_map]
  exact (List.map_congr_left fun key isKey => surroundings_collapsedRow isKey).trans
    (List.map_id _)

/-- A row is determined by its surroundings. -/
theorem eq_of_mem_collapse {row : CollapsedInstances α} (isRow : row ∈ collapse node instances) :
    row = collapsedRow node instances (row.surroundings node) := by
  rw [collapse_eq] at isRow
  obtain ⟨key, isKey, rfl⟩ := List.mem_map.mp isRow
  rw [surroundings_collapsedRow isKey]

/-! ## United variants -/

/-- Variants of one key are united as the first of them, with the source sets of all. -/
theorem uniteVariants_filter (variants : List (UnitedVariant α)) (key : Node) :
    uniteVariants (variants.filter fun variant => variant.key node = key) =
      (variants.find? fun variant => variant.key node = key).map fun first =>
        { sourceSets := .ofList
            ((variants.filter fun variant => variant.key node = key).flatMap
              fun variant => variant.sourceSets.toList)
          content := first.content } := by
  rw [uniteVariants, List.head?_filter]

variable {variants : List (UnitedVariant α)}

/-- United variants are found by different contents, in order of first appearance. -/
theorem map_key_uniteVariants :
    ((groupByFirstSeen (UnitedVariant.key node) variants).filterMap uniteVariants).map
      (UnitedVariant.key node) = keysInOrder (UnitedVariant.key node) variants := by
  rw [groupByFirstSeen, groupByFirstSeenKeyed_eq, List.map_map, List.filterMap_map,
    List.map_filterMap]
  refine (List.filterMap_congr fun key isKey => ?_).trans List.filterMap_some
  obtain ⟨first, found, ofFirst⟩ := exists_find?_of_mem_keysInOrder isKey
  rw [Function.comp_apply, Function.comp_apply, uniteVariants_filter, found, Option.map_some,
    Option.map_some]
  exact congrArg some ofFirst

/-- A united variant is determined by its content. -/
theorem uniteVariants_eq_of_mem {variant : UnitedVariant α}
    (member : variant ∈ (groupByFirstSeen (UnitedVariant.key node) variants).filterMap
      uniteVariants) :
    uniteVariants (variants.filter fun other => other.key node = variant.key node) =
      some variant := by
  obtain ⟨group, isGroup, united⟩ := List.mem_filterMap.mp member
  obtain ⟨key, -, rfl⟩ := mem_groupByFirstSeen.mp isGroup
  have ofKey : variant.key node = key := by
    rw [uniteVariants_filter] at united
    obtain ⟨first, found, rfl⟩ := Option.map_eq_some_iff.mp united
    have ofFirst : first.key node = key := by simpa using List.find?_some found
    exact ofFirst
  rw [ofKey, united]

/-! ## Instances of a variant -/

theorem Instance.variantIn?_eq_some_iff {key : Option Node × Option Node} {entry : Instance α}
    {variant : UnitedVariant α} :
    entry.variantIn? node key = some variant ↔
      entry.surroundings node = key ∧ entry.divergent = some variant.content ∧
        entry.sourceSets = variant.sourceSets := by
  rw [variantIn?]
  split
  · rename_i isKey
    rw [Option.map_eq_some_iff]
    constructor
    · rintro ⟨content, isContent, rfl⟩
      exact ⟨isKey, isContent, rfl⟩
    · rintro ⟨-, isContent, sameSets⟩
      exact ⟨variant.content, isContent, by rw [sameSets]⟩
  · rename_i otherKey
    simp [otherKey]

/-- An instance belongs to the variant that its own is united with. -/
theorem Instance.fallsInto_iff_variantIn? {entry : Instance α} {row : CollapsedInstances α}
    {variant : UnitedVariant α} :
    entry.FallsInto node row variant ↔
      ∃ own, entry.variantIn? node (row.surroundings node) = some own ∧
        own.key node = variant.key node := by
  rw [fallsInto_iff, comparedPart, Option.map_eq_some_iff]
  constructor
  · rintro ⟨sameRow, content, isContent, sameContent⟩
    exact ⟨{ sourceSets := entry.sourceSets, content },
      variantIn?_eq_some_iff.mpr ⟨sameRow, isContent, rfl⟩, sameContent⟩
  · rintro ⟨own, isOwn, sameKey⟩
    obtain ⟨sameRow, isContent, -⟩ := variantIn?_eq_some_iff.mp isOwn
    exact ⟨sameRow, own.content, isContent, sameKey⟩

theorem any_variantIn?_eq (row : CollapsedInstances α) (variant : UnitedVariant α) :
    (fun entry : Instance α => (entry.variantIn? node (row.surroundings node)).any
      fun own => own.key node = variant.key node) =
      fun entry => decide (entry.FallsInto node row variant) := by
  funext entry
  rw [Bool.eq_iff_iff, Option.any_eq_true, decide_eq_true_iff, Instance.fallsInto_iff_variantIn?]
  simp only [decide_eq_true_eq]

section

variable {row : CollapsedInstances α} (isRow : row ∈ collapse node instances)

include isRow

theorem variants_eq_of_mem_collapse :
    row.variants = (groupByFirstSeen (UnitedVariant.key node)
      (variantsIn node (row.surroundings node) instances)).filterMap uniteVariants :=
  congrArg CollapsedInstances.variants (eq_of_mem_collapse isRow)

theorem map_key_variants :
    row.variants.map (UnitedVariant.key node) =
      keysInOrder (UnitedVariant.key node)
        (variantsIn node (row.surroundings node) instances) := by
  rw [variants_eq_of_mem_collapse isRow, map_key_uniteVariants]

/-- A row has the surroundings of its first instance. -/
theorem firstOfRow_of_mem_collapse :
    ∃ first, instances.find? (fun entry => entry.Surrounds node row) = some first ∧
      row.before = first.before ∧ row.after = first.after := by
  have isKey : row.surroundings node ∈ keysInOrder (Instance.surroundings node) instances := by
    rw [← map_surroundings_collapse]
    exact List.mem_map_of_mem isRow
  obtain ⟨first, found, -⟩ := exists_find?_of_mem_keysInOrder isKey
  have before := congrArg CollapsedInstances.before (eq_of_mem_collapse isRow)
  have after := congrArg CollapsedInstances.after (eq_of_mem_collapse isRow)
  rw [collapsedRow] at before after
  simp only [found, Option.bind_some] at before after
  simp only [Instance.surrounds_iff]
  exact ⟨first, found, before, after⟩

variable {variant : UnitedVariant α} (isVariant : variant ∈ row.variants)

include isVariant

/-- A variant has the content of the first instance that belongs to it and the source sets of all
such instances. -/
theorem united_of_mem_variants :
    ∃ first, instances.find? (fun entry => entry.FallsInto node row variant) = some first ∧
      first.divergent = some variant.content ∧
      variant.sourceSets = .ofList
        (((variantsIn node (row.surroundings node) instances).filter
          fun own => own.key node = variant.key node).flatMap
            fun own => own.sourceSets.toList) := by
  rw [variants_eq_of_mem_collapse isRow] at isVariant
  have united := uniteVariants_eq_of_mem isVariant
  rw [uniteVariants_filter, variantsIn, List.find?_filterMap, any_variantIn?_eq] at united
  obtain ⟨own, isOwn, united⟩ := Option.map_eq_some_iff.mp united
  obtain ⟨first, found, isOwn⟩ := Option.bind_eq_some_iff.mp isOwn
  obtain ⟨-, isContent, -⟩ := Instance.variantIn?_eq_some_iff.mp isOwn
  refine ⟨first, found, ?_, (congrArg UnitedVariant.sourceSets united).symm⟩
  rw [isContent, ← united]

theorem mem_sourceSets_iff_of_mem_variants {id : SourceSetId} :
    id ∈ variant.sourceSets.toList ↔
      ∃ entry ∈ instances, entry.FallsInto node row variant ∧ id ∈ entry.sourceSets.toList := by
  obtain ⟨-, -, -, sourceSets⟩ := united_of_mem_variants isRow isVariant
  rw [sourceSets, OrderedSet.mem_ofList, List.mem_flatMap]
  constructor
  · rintro ⟨own, isOwn, inOwn⟩
    obtain ⟨isOwn, sameKey⟩ := List.mem_filter.mp isOwn
    obtain ⟨entry, isEntry, ofEntry⟩ := List.mem_filterMap.mp isOwn
    refine ⟨entry, isEntry, ?_, ?_⟩
    · exact Instance.fallsInto_iff_variantIn?.mpr ⟨own, ofEntry, by simpa using sameKey⟩
    · rwa [(Instance.variantIn?_eq_some_iff.mp ofEntry).2.2]
  · rintro ⟨entry, isEntry, falls, inEntry⟩
    obtain ⟨own, ofEntry, sameKey⟩ := Instance.fallsInto_iff_variantIn?.mp falls
    have isOwn := List.mem_filterMap.mpr ⟨entry, isEntry, ofEntry⟩
    refine ⟨own, List.mem_filter.mpr ⟨isOwn, by simpa using sameKey⟩, ?_⟩
    rwa [← (Instance.variantIn?_eq_some_iff.mp ofEntry).2.2]

end

/-! ## Places of variants -/

variable (node) (instances)

/-- The keys of a variant and its row. -/
def placeKey (placed : CollapsedInstances α × UnitedVariant α) :
    (Option Node × Option Node) × Node :=
  (placed.1.surroundings node, placed.2.key node)

/-- No two variants of the rows have one place. -/
theorem nodup_placeKeys :
    ((placedVariants (collapse node instances)).map (placeKey node)).Nodup := by
  have rowKeys : ((collapse node instances).map (CollapsedInstances.surroundings node)).Nodup := by
    rw [map_surroundings_collapse]
    exact nodup_keysInOrder _ instances
  rw [placedVariants, List.map_flatMap, List.nodup_flatMap]
  constructor
  · intro row isRow
    have keys : (row.variants.map (UnitedVariant.key node)).Nodup := by
      rw [map_key_variants isRow]
      exact nodup_keysInOrder _ _
    rw [List.map_map]
    have placed : placeKey node ∘ (fun variant => (row, variant)) =
        Prod.mk (row.surroundings node) ∘ UnitedVariant.key node := rfl
    rw [placed, ← List.map_map]
    exact keys.map (Prod.mk_right_injective _)
  · refine (List.pairwise_map.mp rowKeys).imp fun {first second} different => ?_
    intro key inFirst inSecond
    simp only [List.mem_map, placeKey] at inFirst inSecond
    obtain ⟨_, ⟨_, _, rfl⟩, rfl⟩ := inFirst
    obtain ⟨_, ⟨_, _, rfl⟩, sameKey⟩ := inSecond
    exact different (congrArg Prod.fst sameKey).symm

variable {instances}

theorem exists_row_of_mem {entry : Instance α} (member : entry ∈ instances) :
    ∃ row ∈ collapse node instances, row.surroundings node = entry.surroundings node := by
  rw [← List.mem_map, map_surroundings_collapse, mem_keysInOrder]
  exact List.mem_map_of_mem member

/-- An instance with a distinguishing part belongs to one variant of one row. -/
theorem countP_fallsInto_collapse {entry : Instance α} (member : entry ∈ instances)
    (distinguishes : entry.divergent.isSome) :
    (placedVariants (collapse node instances)).countP
      (fun placed => entry.FallsInto node placed.1 placed.2) = 1 := by
  obtain ⟨content, isContent⟩ := Option.isSome_iff_exists.mp distinguishes
  let place := (entry.surroundings node, comparedContent node content)
  have falls : (fun placed : CollapsedInstances α × UnitedVariant α =>
      decide (entry.FallsInto node placed.1 placed.2)) =
        (fun key => key == place) ∘ placeKey node := by
    funext placed
    rw [Bool.eq_iff_iff, decide_eq_true_iff, Function.comp_apply, beq_iff_eq,
      Instance.fallsInto_iff, isContent, comparedPart, Option.map_some, Option.some.injEq]
    exact ⟨fun ⟨sameRow, sameContent⟩ => Prod.ext sameRow.symm sameContent.symm,
      fun same => ⟨(congrArg Prod.fst same).symm, (congrArg Prod.snd same).symm⟩⟩
  obtain ⟨row, isRow, sameRow⟩ := exists_row_of_mem node member
  obtain ⟨variant, isVariant, sameKey⟩ :
      ∃ variant ∈ row.variants, variant.key node = comparedContent node content := by
    rw [← List.mem_map, map_key_variants isRow, mem_keysInOrder, List.mem_map]
    let own : UnitedVariant α := { sourceSets := entry.sourceSets, content }
    have isOwn : entry.variantIn? node (row.surroundings node) = some own :=
      Instance.variantIn?_eq_some_iff.mpr ⟨sameRow.symm, isContent, rfl⟩
    exact ⟨own, List.mem_filterMap.mpr ⟨entry, member, isOwn⟩, rfl⟩
  have isPlace : place ∈ (placedVariants (collapse node instances)).map (placeKey node) :=
    List.mem_map.mpr ⟨(row, variant),
      List.mem_flatMap.mpr ⟨row, isRow, List.mem_map_of_mem isVariant⟩,
      Prod.ext sameRow sameKey⟩
  rw [falls, ← List.countP_map]
  exact List.count_eq_one_of_mem (nodup_placeKeys node instances) isPlace

/-! ## The rows of instances -/

/-- Instances are collapsed without loss, invention or repetition, in the order in which rows and
variants first appear. -/
theorem collapses_collapse (node : α → Node) (instances : List (Instance α)) :
    Collapses node instances (collapse node instances) where
  rowsApart := by
    have keys := nodup_keysInOrder (Instance.surroundings node) instances
    rw [← map_surroundings_collapse, List.Nodup, List.pairwise_map] at keys
    refine keys.imp fun {first second} different same => different ?_
    exact Prod.ext (partsAgree_iff.mp same.1) (partsAgree_iff.mp same.2)
  variantsApart row isRow := by
    have keys := nodup_keysInOrder (UnitedVariant.key node)
      (variantsIn node (row.surroundings node) instances)
    rw [← map_key_variants isRow, List.Nodup, List.pairwise_map] at keys
    exact keys.imp fun {first second} different same => different (Node.agreesElsewhere_iff.mp same)
  rowOfInstance entry member := by
    obtain ⟨row, isRow, sameRow⟩ := exists_row_of_mem node member
    exact ⟨row, isRow, Instance.surrounds_iff.mpr sameRow.symm⟩
  variantOfInstance _ := countP_fallsInto_collapse node
  firstOfRow _ := firstOfRow_of_mem_collapse
  firstOfVariant row isRow variant isVariant := by
    obtain ⟨first, found, isContent, -⟩ := united_of_mem_variants isRow isVariant
    exact ⟨first, found, isContent⟩
  sourceSets _ isRow _ isVariant _ := mem_sourceSets_iff_of_mem_variants isRow isVariant
  ascending row isRow variant isVariant := by
    obtain ⟨-, -, -, sourceSets⟩ := united_of_mem_variants isRow isVariant
    rw [sourceSets]
    exact OrderedSet.ascending_ofList _
  rowOrder := by
    have keys := pairwise_keysInOrder (Instance.surroundings node) instances
    rw [← map_surroundings_collapse, List.pairwise_map] at keys
    simpa only [Instance.surrounds_iff] using keys
  variantOrder row isRow := by
    have keys := pairwise_keysInOrder (UnitedVariant.key node)
      (variantsIn node (row.surroundings node) instances)
    rw [← map_key_variants isRow, List.pairwise_map] at keys
    refine keys.imp fun {earlier later} before => ?_
    have before := findIdx_lt_findIdx_of_filterMap before
    rwa [any_variantIn?_eq, any_variantIn?_eq] at before

/-- The collapsed variants of a divergent group. -/
theorem collapses_collapseNodes (children : List Node) :
    Collapses id (children.filterMap Node.instance?) (collapseNodes children) :=
  collapses_collapse id _

end Content

end DocPages
