import DocPages.Proofs.Page.Contents
import DocPages.Proofs.Siblings.RowOrder

/-!
# What listings show

A listing drops type aliases beside classes of their name and repetitions of variants. What is left
stands for what is dropped: each declaration of a listing has a variant in it with the same identity
and source sets, or is a type alias and gives way to a class.
-/

namespace DocPages

namespace Declaration

theorem mem_of_mem_listedVariants {declarations : List Declaration} {variant : Declaration}
    (listed : variant ∈ listedVariants declarations) : variant ∈ declarations := by
  obtain ⟨row, isRow, inRow⟩ := List.mem_flatMap.mp listed
  exact mem_of_mem_rows isRow inRow

/-- What competes for a place in a row is shown by a variant in it with its identity and source
sets. -/
theorem exists_row_of_mem_competitors {key : RowKey} {declarations : List Declaration}
    {declaration : Declaration} (member : declaration ∈ competitors key declarations) :
    ∃ variants, (key, variants) ∈ rows declarations ∧
      ∃ variant ∈ variants, variant.variantKey = declaration.variantKey := by
  obtain ⟨listed, isKey⟩ := mem_competitors member
  obtain ⟨variant, isDistinct, same⟩ :
      ∃ variant ∈ distinctBy variantKey (competitors key declarations),
        variant.variantKey = declaration.variantKey := exists_mem_distinctBy member
  refine ⟨sortVariants (distinctBy variantKey (competitors key declarations)), ?_, variant,
    mem_sortBy.mpr isDistinct, same⟩
  rw [rows_eq]
  refine List.mem_map.mpr ⟨key, mem_sortBy.mpr ?_, rfl⟩
  rw [mem_keysInOrder, ← isKey]
  exact List.mem_map_of_mem listed

/-- A declaration competes for a place in its row, or it is a type alias and a class does. -/
private theorem exists_mem_competitors {declarations : List Declaration}
    {declaration : Declaration} (member : declaration ∈ declarations) :
    ∃ shown ∈ competitors (RowKey.ofDeclaration declaration) declarations,
      shown = declaration ∨ declaration.isTypeAlias ∧ shown.isClasslike := by
  have inRow : declaration ∈ declarations.filter fun other =>
      RowKey.ofDeclaration other = RowKey.ofDeclaration declaration := by
    simp [member]
  rw [competitors, withoutHiddenAliases]
  split
  · rename_i hasClass
    cases form : declaration.isTypeAlias with
    | true =>
        obtain ⟨shown, shownInRow, isClass⟩ := List.any_eq_true.mp hasClass
        refine ⟨shown, List.mem_filter.mpr ⟨shownInRow, ?_⟩, .inr ⟨rfl, isClass⟩⟩
        cases shown <;> simp_all [isClasslike, isTypeAlias]
    | false => exact ⟨declaration, List.mem_filter.mpr ⟨inRow, by simp [form]⟩, .inl rfl⟩
  · exact ⟨declaration, inRow, .inl rfl⟩

/-- Every declaration of a section is shown by a variant of its identity, unless it is a type alias
that gives way to a class of its name. -/
theorem exists_mem_listedVariants {declarations : List Declaration} {declaration : Declaration}
    (member : declaration ∈ declarations) :
    ∃ shown ∈ declarations,
      (shown = declaration ∨
        declaration.isTypeAlias ∧ shown.isClasslike ∧ shown.name? = declaration.name?) ∧
      ∃ variant ∈ listedVariants declarations, variant ∈ declarations ∧
        variant.variantKey = shown.variantKey := by
  obtain ⟨shown, competes, stands⟩ := exists_mem_competitors member
  obtain ⟨listed, sameKey⟩ := mem_competitors competes
  have sameName : shown.name? = declaration.name? := congrArg RowKey.name sameKey
  obtain ⟨variants, isRow, variant, inRow, same⟩ := exists_row_of_mem_competitors competes
  refine ⟨shown, listed, ?_, variant, List.mem_flatMap.mpr ⟨_, isRow, inRow⟩,
    mem_of_mem_rows isRow inRow, same⟩
  exact stands.imp_right fun ⟨isAlias, isClass⟩ => ⟨isAlias, isClass, sameName⟩

end Declaration

namespace Members

private theorem exists_separatedListing (separates : Bool) (title inheritedTitle : String)
    (kind : ListedKind) (scope : OrderedSet Dri) (extensions : List Declaration)
    {declarations : List Declaration} {declaration : Declaration}
    (member : declaration ∈ declarations) (own : declaration.isInherited = false) :
    ∃ listing ∈ separatedListings separates title inheritedTitle kind scope declarations extensions,
      declaration ∈ listing.declarations ∧
        ∀ other ∈ listing.declarations, other ∈ declarations ∨ other ∈ extensions := by
  rw [separatedListings]
  split
  · refine ⟨_, List.mem_cons_self, List.mem_append_left _ (List.mem_filter.mpr ⟨member, ?_⟩), ?_⟩
    · simp [own]
    · intro other isListed
      exact (List.mem_append.mp isListed).imp (fun inMembers => (List.mem_filter.mp inMembers).1)
        fun inExtensions => (List.mem_filter.mp inExtensions).1
  · exact ⟨_, List.mem_singleton_self _, List.mem_append_left _ member,
      fun other => List.mem_append.mp⟩

/-- A function or property that is not inherited is listed with other functions or properties and
with extensions. -/
theorem exists_listing_of_mem (settings : Settings) (scope : OrderedSet Dri)
    (extensions : List Declaration) (members : Members) {declaration : Declaration}
    (member : declaration ∈ members.functions ∨ declaration ∈ members.properties)
    (own : declaration.isInherited = false) :
    ∃ listing ∈ members.listings settings scope extensions, declaration ∈ listing.declarations ∧
      ∀ other ∈ listing.declarations,
        (other ∈ members.functions ∨ other ∈ members.properties) ∨ other ∈ extensions := by
  rcases member with isFunction | isProperty
  · obtain ⟨listing, isListing, listed, others⟩ := exists_separatedListing
      settings.separateInherited "Functions" "Inherited functions" .functions scope
      (extensions.filter Declaration.isFunction) isFunction own
    exact ⟨listing, List.mem_cons_of_mem _ (List.mem_append_right _ isListing), listed,
      fun other isListed => (others other isListed).imp .inl fun isExtension =>
        (List.mem_filter.mp isExtension).1⟩
  · obtain ⟨listing, isListing, listed, others⟩ := exists_separatedListing
      settings.separateInherited "Properties" "Inherited properties" .properties scope
      (extensions.filter Declaration.isProperty) isProperty own
    exact ⟨listing, List.mem_cons_of_mem _ (List.mem_append_left _ isListing), listed,
      fun other isListed => (others other isListed).imp .inr fun isExtension =>
        (List.mem_filter.mp isExtension).1⟩

end Members

end DocPages
