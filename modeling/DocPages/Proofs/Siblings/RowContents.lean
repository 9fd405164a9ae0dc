import DocPages.Proofs.Siblings.RowOrder

/-!
# What rows hold

The rows of a section ascend strictly by their keys, and there is one for every key. A row holds the
first declaration of every identity and source sets among those that compete for a place in it, in
the order of variants and, where this ties, in the order of the section. So nothing is lost except
repetitions and the type aliases beside a class, and the rows of what the rows hold are the same
rows.
-/

namespace DocPages

namespace RowKey

/-- The order of rows: a missing name stands first, then the names follow in alphabetical order, and
members stand before the extensions of their name. -/
inductive Precedes : RowKey → RowKey → Prop
  | unnamed {name : String} {form form' : Bool} : Precedes ⟨none, form⟩ ⟨some name, form'⟩
  | named {earlier later : String} {form form' : Bool}
      (below : compareAlphabetically earlier later = .lt) :
      Precedes ⟨some earlier, form⟩ ⟨some later, form'⟩
  | member {name : Option String} : Precedes ⟨name, false⟩ ⟨name, true⟩

/-- The comparison of keys is the order of rows. -/
theorem compareKeys_eq_lt_iff {left right : RowKey} :
    left.compareKeys right = .lt ↔ left.Precedes right := by
  rw [compareKeys, Ordering.then_eq_lt]
  constructor
  · intro below
    obtain ⟨name, form⟩ := left
    obtain ⟨name', form'⟩ := right
    rcases below with nameBelow | ⟨sameName, formBelow⟩
    · cases name <;> cases name'
      · cases nameBelow
      · exact .unnamed
      · cases nameBelow
      · exact .named nameBelow
    · obtain rfl : name = name' := Std.LawfulEqCmp.eq_of_compare sameName
      cases form <;> cases form'
      · cases formBelow
      · exact .member
      · cases formBelow
      · cases formBelow
  · intro precedes
    cases precedes with
    | unnamed => exact .inl rfl
    | named below => exact .inl below
    | member => exact .inr ⟨Std.ReflCmp.compare_self, rfl⟩

end RowKey

namespace Declaration

/-- Where the first candidate stands that a variant repeats, which may be the variant itself. -/
def placeAmong (candidates : List Declaration) (variant : Declaration) : Nat :=
  candidates.findIdx fun other => other.variantKey = variant.variantKey

/-- The declaration is the first candidate with its identity and source sets. -/
def IsFirstAmong (candidates : List Declaration) (declaration : Declaration) : Prop :=
  candidates.find? (fun other => other.variantKey = declaration.variantKey) = some declaration

/-- The variants are the first candidates of their identity and source sets, in the order of
variants and, where this ties, in the order of the candidates. -/
structure IsRowOf (candidates variants : List Declaration) : Prop where
  nonempty : variants ≠ []
  mem_iff : ∀ declaration, declaration ∈ variants ↔ IsFirstAmong candidates declaration
  ordered : variants.Pairwise fun earlier later =>
    compareVariants earlier later = .lt ∨
      compareVariants earlier later = .eq ∧
        placeAmong candidates earlier < placeAmong candidates later

/-- The candidates for a row make a row of their own if there are any. -/
theorem isRowOf_sortVariants {candidates : List Declaration} (present : candidates ≠ []) :
    IsRowOf candidates (sortVariants (distinctBy variantKey candidates)) where
  nonempty := by
    obtain ⟨candidate, member⟩ := List.exists_mem_of_ne_nil candidates present
    obtain ⟨first, kept, -⟩ : ∃ first ∈ distinctBy variantKey candidates,
        first.variantKey = candidate.variantKey := exists_mem_distinctBy member
    exact List.ne_nil_of_mem (mem_sortBy.mpr kept)
  mem_iff declaration := mem_sortBy.trans mem_distinctBy_iff
  ordered := stable_sortBy (pairwise_findIdx_distinctBy variantKey candidates)

/-! ## Candidates -/

theorem withoutHiddenAliases_eq_self {variants : List Declaration}
    (noneHidden : variants.any isClasslike → ∀ variant ∈ variants, variant.isTypeAlias = false) :
    withoutHiddenAliases variants = variants := by
  rw [withoutHiddenAliases]
  split
  · rename_i hasClass
    exact List.filter_eq_self.mpr fun variant member => by simp [noneHidden hasClass variant member]
  · rfl

/-- Type aliases give way to a class, so some declaration is always left. -/
theorem withoutHiddenAliases_ne_nil {variants : List Declaration} (present : variants ≠ []) :
    withoutHiddenAliases variants ≠ [] := by
  rw [withoutHiddenAliases]
  split
  · rename_i hasClass
    obtain ⟨declaration, member, isClass⟩ := List.any_eq_true.mp hasClass
    have notAlias : declaration.isTypeAlias = false := by
      cases declaration <;> simp_all [isClasslike, isTypeAlias]
    exact List.ne_nil_of_mem (List.mem_filter.mpr ⟨member, by simp [notAlias]⟩)
  · exact present

/-- Beside a class no type alias competes for a place in a row. -/
theorem isTypeAlias_of_mem_competitors {key : RowKey} {declarations : List Declaration}
    {first second : Declaration} (firstCompetes : first ∈ competitors key declarations)
    (isClass : first.isClasslike) (secondCompetes : second ∈ competitors key declarations) :
    second.isTypeAlias = false := by
  have hasClass :
      (declarations.filter fun declaration => RowKey.ofDeclaration declaration = key).any
        isClasslike := by
    obtain ⟨listed, hasKey⟩ := mem_competitors firstCompetes
    exact List.any_eq_true.mpr ⟨first, List.mem_filter.mpr ⟨listed, by simpa using hasKey⟩, isClass⟩
  rw [competitors, withoutHiddenAliases, if_pos hasClass] at secondCompetes
  simpa using (List.mem_filter.mp secondCompetes).2

theorem competitors_ne_nil {key : RowKey} {declarations : List Declaration}
    (isKey : ∃ declaration ∈ declarations, RowKey.ofDeclaration declaration = key) :
    competitors key declarations ≠ [] := by
  obtain ⟨declaration, member, hasKey⟩ := isKey
  refine withoutHiddenAliases_ne_nil (List.ne_nil_of_mem (a := declaration) ?_)
  exact List.mem_filter.mpr ⟨member, by simpa using hasKey⟩

/-! ## Rows -/

/-- The keys of the rows are those of the declarations. -/
theorem mem_keys_rows_iff {declarations : List Declaration} {key : RowKey} :
    key ∈ (rows declarations).map Prod.fst ↔
      ∃ declaration ∈ declarations, RowKey.ofDeclaration declaration = key := by
  simp [rows_eq]

/-- A row holds the competitors for a place in it. -/
theorem eq_of_mem_rows {declarations : List Declaration} {row : RowKey × List Declaration}
    (isRow : row ∈ rows declarations) :
    row.2 = sortVariants (distinctBy variantKey (competitors row.1 declarations)) := by
  rw [rows_eq] at isRow
  obtain ⟨key, -, rfl⟩ := List.mem_map.mp isRow
  rfl

theorem isRowOf_of_mem_rows {declarations : List Declaration} {row : RowKey × List Declaration}
    (isRow : row ∈ rows declarations) : IsRowOf (competitors row.1 declarations) row.2 := by
  have present := competitors_ne_nil (mem_keys_rows_iff.mp (List.mem_map_of_mem isRow))
  rw [eq_of_mem_rows isRow]
  exact isRowOf_sortVariants present

/-- The keys of the rows ascend strictly. -/
theorem pairwise_rows (declarations : List Declaration) :
    (rows declarations).Pairwise fun earlier later => earlier.1.compareKeys later.1 = .lt := by
  have distinct : (keysInOrder RowKey.ofDeclaration declarations).Pairwise (· ≠ ·) :=
    nodup_keysInOrder _ _
  rw [rows_eq, List.pairwise_map]
  refine (stable_sortBy distinct).imp fun {earlier later} ordered => ?_
  exact ordered.resolve_right fun ⟨tied, different⟩ =>
    different (Std.LawfulEqCmp.eq_of_compare tied)

theorem nodup_keys_rows (declarations : List Declaration) :
    ((rows declarations).map Prod.fst).Nodup := by
  refine List.pairwise_map.mpr ((pairwise_rows declarations).imp ?_)
  intro earlier later below same
  have tied : earlier.1.compareKeys later.1 = .eq := same ▸ Std.ReflCmp.compare_self
  rw [tied] at below
  cases below

/-- What a row holds is shown as it stands in the row. -/
theorem sortVariants_shownVariants_of_mem_rows {declarations : List Declaration}
    {row : RowKey × List Declaration} (isRow : row ∈ rows declarations) :
    sortVariants (shownVariants row.2) = row.2 := by
  obtain ⟨key, variants⟩ := row
  have variants_eq :
      variants = sortVariants (distinctBy variantKey (competitors key declarations)) :=
    eq_of_mem_rows isRow
  have competes : ∀ variant ∈ variants, variant ∈ competitors key declarations := by
    intro variant member
    rw [variants_eq] at member
    exact mem_of_mem_distinctBy (mem_sortBy.mp member)
  have noneHidden : variants.any isClasslike → ∀ variant ∈ variants,
      variant.isTypeAlias = false := by
    intro hasClass variant member
    obtain ⟨first, inRow, isClass⟩ := List.any_eq_true.mp hasClass
    exact isTypeAlias_of_mem_competitors (competes first inRow) isClass (competes variant member)
  have apart : variants.Pairwise fun first second => first.variantKey ≠ second.variantKey := by
    rw [variants_eq]
    exact ((sortBy_perm compareVariants _).pairwise_iff Ne.symm).mpr (pairwise_distinctBy _ _)
  have ascending : variants.Pairwise fun first second => (compareVariants first second).isLE := by
    rw [variants_eq]
    exact ascending_sortBy _
  calc sortVariants (shownVariants variants)
      = sortVariants (distinctBy variantKey (withoutHiddenAliases variants)) := rfl
    _ = sortVariants variants := by
        rw [withoutHiddenAliases_eq_self noneHidden, distinctBy_eq_self apart]
    _ = variants := sortBy_eq_self ascending

/-- The rows of what the rows hold are the same rows. -/
theorem rows_flatMap_rows (declarations : List Declaration) :
    rows ((rows declarations).flatMap Prod.snd) = rows declarations := by
  have groups : groupByFirstSeenKeyed RowKey.ofDeclaration
      ((rows declarations).flatMap Prod.snd) = rows declarations :=
    groupByFirstSeenKeyed_flatMap (nodup_keys_rows declarations)
      (fun row isRow => (isRowOf_of_mem_rows isRow).nonempty)
      fun row isRow variant member => key_of_mem_rows isRow member
  have kept : (rows declarations).map (fun row =>
      (row.1, sortVariants (shownVariants row.2))) = rows declarations := by
    have same : ∀ row ∈ rows declarations, (row.1, sortVariants (shownVariants row.2)) = row := by
      intro row isRow
      rw [sortVariants_shownVariants_of_mem_rows isRow]
    exact (List.map_congr_left same).trans (List.map_id' _)
  have ascending : (rows declarations).Pairwise fun earlier later =>
      (RowKey.compareKeys earlier.1 later.1).isLE :=
    (pairwise_rows declarations).imp fun below => Ordering.isLE_iff_eq_lt_or_eq_eq.mpr (.inl below)
  rw [rows, groups]
  exact (congrArg (sortBy fun left right => left.1.compareKeys right.1) kept).trans
    (sortBy_eq_self ascending)

/-- The rows of a section follow one another in the order of rows, one for each key of its
declarations. Each holds the first declaration of every identity and source sets among those of its
key, without the type aliases beside a class, in the order of variants and otherwise of the section.
The rows of what the rows hold, joined, are the same rows. -/
theorem rows_of_section (declarations : List Declaration) :
    let listed := rows declarations
    (listed.Pairwise fun earlier later => earlier.1.Precedes later.1) ∧
      (listed.map Prod.fst).Nodup ∧
      (∀ key, key ∈ listed.map Prod.fst ↔
        ∃ declaration ∈ declarations, RowKey.ofDeclaration declaration = key) ∧
      (∀ row ∈ listed, IsRowOf (competitors row.1 declarations) row.2) ∧
      rows (listed.flatMap Prod.snd) = listed := by
  refine ⟨?_, nodup_keys_rows declarations, fun key => mem_keys_rows_iff,
    fun row => isRowOf_of_mem_rows, rows_flatMap_rows declarations⟩
  exact (pairwise_rows declarations).imp RowKey.compareKeys_eq_lt_iff.mp

end Declaration

end DocPages
