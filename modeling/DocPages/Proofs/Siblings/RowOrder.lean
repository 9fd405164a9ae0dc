import DocPages.Declaration.Normal
import DocPages.Proofs.Collection.Comparison
import DocPages.Proofs.Collection.Grouping
import DocPages.Proofs.Collection.Sorting
import DocPages.Siblings.Rows

/-!
# Rows do not depend on the input order

A section lists the same rows with the same variants, whatever order its declarations come in, as
long as the comparison of variants tells different declarations of a row apart. Grouping, dropping
repetitions and stable sorting each keep input order, so the theorem rests on two facts: the keys of
rows are totally ordered, and what is left of a row ascends strictly.
-/

namespace DocPages

/-! ## Orders of keys and variants -/

namespace RowKey

instance : Std.TransCmp compareKeys :=
  transCmp_then (transCmp_on inferInstance name) (transCmp_on inferInstance isExtension)

instance : Std.LawfulEqCmp compareKeys where
  compare_self {key} := by
    have sameName : compareAbsentFirst compareAlphabetically key.name key.name = .eq :=
      Std.ReflCmp.compare_self
    simp [compareKeys, sameName]
  eq_of_compare {left right} equal := by
    obtain ⟨sameName, sameForm⟩ := Ordering.then_eq_eq.mp equal
    cases left
    cases right
    exact congrArg₂ RowKey.mk (Std.LawfulEqCmp.eq_of_compare sameName)
      (Std.LawfulEqOrd.eq_of_compare sameForm)

end RowKey

instance : Std.TransCmp CallableId.compareVariants :=
  transCmp_then (transCmp_on inferInstance fun callable : CallableId => callable.params.length)
    (transCmp_on inferInstance CallableId.signature)

namespace Declaration

instance : Std.TransCmp compareVariants :=
  transCmp_then
    (transCmp_then
      (transCmp_on inferInstance fun declaration : Declaration => declaration.dri.packageName)
      (transCmp_on inferInstance fun declaration : Declaration => declaration.dri.classNames))
    (transCmp_on inferInstance fun declaration : Declaration => declaration.dri.callable)

/-- The comparison of variants only reads their identities. -/
theorem compareVariants_eq_of_dri {left right : Declaration} (same : left.dri = right.dri) :
    compareVariants left right = .eq := by
  have reflexive : compareVariants right right = .eq := Std.ReflCmp.compare_self
  rw [← reflexive]
  simp only [compareVariants, same]

/-! ## Declarations that agree -/

theorem common?_normal (declaration : Declaration) :
    declaration.normal.common? = declaration.common?.map normalCommon := by
  cases declaration with
  | module decl => rfl
  | package decl | classlike decl | typeAlias decl | function decl | property decl
  | enumEntry decl =>
      cases decl
      rfl

theorem dri_normal (declaration : Declaration) : declaration.normal.dri = declaration.dri := by
  have same : Common.dri ∘ normalCommon = Common.dri := by
    funext common
    cases common
    rfl
  rw [dri, dri, common?_normal, Option.map_map, same]

theorem sourceSets_normal (declaration : Declaration) :
    declaration.normal.sourceSets = declaration.sourceSets := by
  have same : ∀ common, (normalCommon common).sourceSets = common.sourceSets := by
    intro common
    cases common
    rfl
  cases declaration with
  | package decl | classlike decl | typeAlias decl | function decl | property decl | enumEntry decl
  | module decl =>
      cases decl
      first | rfl | exact same _

theorem agrees_iff {left right : Declaration} :
    left.agrees right = true ↔ left.normal = right.normal := by
  rw [agrees, beq_iff_eq]

/-- Declarations that agree are repetitions of one variant. -/
theorem variantKey_eq_of_normal {left right : Declaration} (same : left.normal = right.normal) :
    left.variantKey = right.variantKey := by
  rw [variantKey, variantKey, ← dri_normal left, ← dri_normal right, ← sourceSets_normal left,
    ← sourceSets_normal right, same]

/-! ## Rows -/

/-- The declarations of a row that compete for a place in it: its type aliases give way to its
classes. -/
def withoutHiddenAliases (variants : List Declaration) : List Declaration :=
  if variants.any isClasslike then variants.filter (!·.isTypeAlias) else variants

/-- The declarations that compete for a place in the row of a key. -/
def competitors (key : RowKey) (declarations : List Declaration) : List Declaration :=
  withoutHiddenAliases
    (declarations.filter fun declaration => RowKey.ofDeclaration declaration = key)

/-- A row with its variants up to the order of marks. -/
def normalRow (row : RowKey × List Declaration) : RowKey × List Declaration :=
  (row.1, row.2.map normal)

/-- The rows of a section are those of its keys in ascending order. -/
theorem rows_eq (declarations : List Declaration) :
    rows declarations =
      (sortBy RowKey.compareKeys (keysInOrder RowKey.ofDeclaration declarations)).map fun key =>
        (key, sortVariants (distinctBy variantKey (competitors key declarations))) := by
  rw [rows, groupByFirstSeenKeyed_eq, List.map_map, sortBy_map]
  rfl

theorem mem_competitors {key : RowKey} {declarations : List Declaration} {declaration : Declaration}
    (member : declaration ∈ competitors key declarations) :
    declaration ∈ declarations ∧ RowKey.ofDeclaration declaration = key := by
  have inRow : declaration ∈ declarations.filter fun other => RowKey.ofDeclaration other = key := by
    unfold competitors withoutHiddenAliases at member
    split at member
    · exact (List.mem_filter.mp member).1
    · exact member
  simpa using inRow

/-- The variants in a row are among the declarations of the section and have the key of the row. -/
private theorem mem_and_key_of_mem_rows {declarations variants : List Declaration} {key : RowKey}
    (isRow : (key, variants) ∈ rows declarations) {variant : Declaration}
    (member : variant ∈ variants) :
    variant ∈ declarations ∧ RowKey.ofDeclaration variant = key := by
  rw [rows_eq] at isRow
  obtain ⟨shownKey, -, equality⟩ := List.mem_map.mp isRow
  obtain ⟨rfl, rfl⟩ := Prod.mk.inj equality
  exact mem_competitors (mem_of_mem_distinctBy (mem_sortBy.mp member))

theorem mem_of_mem_rows {declarations variants : List Declaration} {key : RowKey}
    (isRow : (key, variants) ∈ rows declarations) {variant : Declaration}
    (member : variant ∈ variants) : variant ∈ declarations :=
  (mem_and_key_of_mem_rows isRow member).1

theorem key_of_mem_rows {declarations variants : List Declaration} {key : RowKey}
    (isRow : (key, variants) ∈ rows declarations) {variant : Declaration}
    (member : variant ∈ variants) : RowKey.ofDeclaration variant = key :=
  (mem_and_key_of_mem_rows isRow member).2

theorem competitors_perm (key : RowKey) {left right : List Declaration} (perm : left.Perm right) :
    (competitors key left).Perm (competitors key right) := by
  have rowPerm := perm.filter fun declaration => RowKey.ofDeclaration declaration = key
  unfold competitors withoutHiddenAliases
  rw [rowPerm.any_eq]
  split
  · exact rowPerm.filter _
  · exact rowPerm

/-- What is left of a row ascends strictly if the comparison tells its variants apart. -/
private theorem ascending_sortVariants {variants : List Declaration}
    (apart : ∀ first ∈ variants, ∀ second ∈ variants,
      compareVariants first second = .eq → first.normal = second.normal) :
    (sortVariants (distinctBy variantKey variants)).Pairwise fun first second =>
      compareVariants first second = .lt := by
  have sorted : (sortVariants (distinctBy variantKey variants)).Pairwise fun first second =>
      (compareVariants first second).isLE := ascending_sortBy _
  have distinct : (sortVariants (distinctBy variantKey variants)).Pairwise fun first second =>
      first.variantKey ≠ second.variantKey :=
    ((sortBy_perm compareVariants _).pairwise_iff Ne.symm).mpr (pairwise_distinctBy _ _)
  refine (sorted.and distinct).imp_of_mem fun {first second} firstMember secondMember both => ?_
  rcases Ordering.isLE_iff_eq_lt_or_eq_eq.mp both.1 with below | tied
  · exact below
  · have firstListed := mem_of_mem_distinctBy (mem_sortBy.mp firstMember)
    have secondListed := mem_of_mem_distinctBy (mem_sortBy.mp secondMember)
    exact (both.2 (variantKey_eq_of_normal (apart first firstListed second secondListed tied))).elim

/-- Every variant of a list stands, up to repetition, among the sorted variants of the same list in
another order. -/
private theorem exists_tied_mem_sortVariants {left right : List Declaration}
    (perm : left.Perm right) {declaration : Declaration}
    (member : declaration ∈ sortVariants (distinctBy variantKey left)) :
    ∃ other ∈ sortVariants (distinctBy variantKey right),
      compareVariants declaration other = .eq := by
  have listed : declaration ∈ right :=
    perm.mem_iff.mp (mem_of_mem_distinctBy (mem_sortBy.mp member))
  obtain ⟨other, kept, sameKey⟩ : ∃ other ∈ distinctBy variantKey right,
      other.variantKey = declaration.variantKey := exists_mem_distinctBy listed
  refine ⟨other, mem_sortBy.mpr kept, ?_⟩
  exact compareVariants_eq_of_dri (congrArg Prod.fst sameKey).symm

/-- The variants that are left of a row agree for every order of the row. -/
private theorem map_normal_sortVariants {left right : List Declaration} (perm : left.Perm right)
    (apart : ∀ first ∈ left, ∀ second ∈ left,
      compareVariants first second = .eq → first.normal = second.normal) :
    (sortVariants (distinctBy variantKey left)).map normal =
      (sortVariants (distinctBy variantKey right)).map normal := by
  have apartRight : ∀ first ∈ right, ∀ second ∈ right,
      compareVariants first second = .eq → first.normal = second.normal :=
    fun first firstMember second secondMember =>
      apart first (perm.mem_iff.mpr firstMember) second (perm.mem_iff.mpr secondMember)
  refine map_eq_of_ascending (ascending_sortVariants apart) (ascending_sortVariants apartRight)
    (fun _ member => exists_tied_mem_sortVariants perm member)
    (fun _ member => exists_tied_mem_sortVariants perm.symm member)
    fun first firstMember second secondMember tied => ?_
  have firstListed := mem_of_mem_distinctBy (mem_sortBy.mp firstMember)
  have secondListed := mem_of_mem_distinctBy (mem_sortBy.mp secondMember)
  exact apart first firstListed second (perm.mem_iff.mpr secondListed) tied

/-- A section has the same rows for every order of its declarations, if any two declarations that
compete for a place in one row agree or are told apart by the comparison of variants. -/
theorem rows_normal_eq_of_perm {left right : List Declaration} (perm : left.Perm right)
    (apart : ∀ key, ∀ first ∈ competitors key left, ∀ second ∈ competitors key left,
      first.agrees second ∨ compareVariants first second ≠ .eq) :
    (rows left).map normalRow = (rows right).map normalRow := by
  rw [rows_eq, rows_eq, List.map_map, List.map_map,
    sortBy_eq_of_perm (keysInOrder_perm RowKey.ofDeclaration perm)]
  refine List.map_congr_left fun key _ => ?_
  have sameVariants := map_normal_sortVariants (competitors_perm key perm)
    fun first firstMember second secondMember tied =>
      (apart key first firstMember second secondMember).elim agrees_iff.mp fun untied =>
        (untied tied).elim
  simp only [Function.comp_apply, normalRow, sameVariants]

/-- A class `Box` and its copy with its marks in another order, a type alias of that name, and a
class whose name differs in case only. -/
def boxes : List Declaration :=
  let named := fun (name : String) (markers : List String) =>
    ({ dri := .ofClass "shapes" name, name := some name, sourceSets := .singleton ⟨"main", "jvm"⟩
       extras := { clashMarkers := some markers } } : Common)
  [.typeAlias { common := named "Box" [] }, .classlike { common := named "Box" ["a", "b"] },
    .classlike { common := named "box" [] }, .classlike { common := named "Box" ["b", "a"] }]

/-- The comparison of variants ties the classes `Box` with each other and with the type alias. The
classes agree, the type alias gives way to them, and so reversing the list leaves its rows. -/
theorem rows_normal_eq_boxes_reverse :
    boxes.Perm boxes.reverse ∧
      (∀ key, ∀ first ∈ competitors key boxes, ∀ second ∈ competitors key boxes,
        first.agrees second ∨ compareVariants first second ≠ .eq) ∧
      (rows boxes).map normalRow = (rows boxes.reverse).map normalRow := by
  have perm : boxes.Perm boxes.reverse := boxes.reverse_perm.symm
  have sameRow : ∀ declaration ∈ boxes,
      ∀ first ∈ competitors (RowKey.ofDeclaration declaration) boxes,
      ∀ second ∈ competitors (RowKey.ofDeclaration declaration) boxes,
        first.agrees second ∨ compareVariants first second ≠ .eq := by
    decide +kernel
  have apart : ∀ key, ∀ first ∈ competitors key boxes, ∀ second ∈ competitors key boxes,
      first.agrees second ∨ compareVariants first second ≠ .eq := by
    intro key first firstMember
    obtain ⟨listed, rfl⟩ := mem_competitors firstMember
    exact sameRow first listed first firstMember
  exact ⟨perm, apart, rows_normal_eq_of_perm perm apart⟩

end Declaration

end DocPages
