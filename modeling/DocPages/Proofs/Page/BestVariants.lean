import DocPages.Page.Contents
import DocPages.Proofs.Collection.Grouping
import Mathlib.Data.List.MinMax

/-!
# Best variants

Of several variants of a text, the one of the common platform is preferred to the one of the virtual
machine, and that one to all others. Only variants whose text no earlier one has take part, so the
preference can miss a platform all of whose variants repeat earlier ones.
-/

namespace DocPages

/-- How much variants of a platform are preferred. -/
def Platform.preference : Platform → Nat
  | .common => 2
  | .jvm => 1
  | .js | .wasm | .native => 0

namespace Platform

theorem preference_le_two (platform : Platform) : platform.preference ≤ 2 := by
  cases platform <;> decide

theorem preference_eq_two_iff {platform : Platform} :
    platform.preference = 2 ↔ platform = .common := by
  cases platform <;> decide

theorem preference_eq_one_iff {platform : Platform} :
    platform.preference = 1 ↔ platform = .jvm := by
  cases platform <;> decide

end Platform

/-- The first element that reaches the highest level of a list is its first greatest one. -/
private theorem find?_eq_argmax {α : Type} {elements : List α} {level : α → Nat} {highest : Nat}
    (atMost : ∀ element ∈ elements, level element ≤ highest)
    (reached : ∃ element ∈ elements, level element = highest) :
    elements.find? (fun element => level element = highest) = elements.argmax level := by
  classical
  obtain ⟨best, found⟩ : ∃ best, elements.find? (fun element => level element = highest) =
      some best := by
    rw [← Option.isSome_iff_exists, List.find?_isSome]
    simpa using reached
  obtain ⟨isHighest, before, after, split, lower⟩ := List.find?_eq_some_iff_append.mp found
  have isHighest : level best = highest := by simpa using isHighest
  have notBefore : ∀ element, level element = highest → element ∉ before := by
    intro element reaches member
    simpa [reaches] using lower element member
  rw [found, eq_comm, List.argmax_eq_some_iff]
  refine ⟨List.mem_of_find?_eq_some found, fun element member => isHighest ▸ atMost element member,
    fun element member atLeast => ?_⟩
  have alsoHighest : level element = highest :=
    Nat.le_antisymm (atMost element member) (isHighest ▸ atLeast)
  rw [split, List.idxOf_append_of_notMem (notBefore best isHighest), List.idxOf_cons_self,
    List.idxOf_append_of_notMem (notBefore element alsoHighest)]
  exact Nat.le_add_right _ _

/-- The first element that reaches a level above which there is none is the first greatest one. If
none reaches it, the first greatest one is what is taken instead. -/
private theorem find?_or_eq_argmax {α : Type} {elements : List α} {level : α → Nat} {highest : Nat}
    {instead : Option α} (atMost : ∀ element ∈ elements, level element ≤ highest)
    (below : (∀ element ∈ elements, level element < highest) → instead = elements.argmax level) :
    (elements.find? fun element => level element = highest).or instead = elements.argmax level := by
  by_cases reached : ∃ element ∈ elements, level element = highest
  · rw [find?_eq_argmax atMost reached]
    obtain ⟨element, member, -⟩ := reached
    obtain ⟨best, greatest⟩ : ∃ best, elements.argmax level = some best :=
      Option.ne_none_iff_exists'.mp (List.argmax_eq_none.not.mpr (List.ne_nil_of_mem member))
    rw [greatest, Option.some_or]
  · have absent : elements.find? (fun element => level element = highest) = none :=
      List.find?_eq_none.mpr fun element member reaches =>
        reached ⟨element, member, by simpa using reaches⟩
    rw [absent, Option.none_or]
    exact below fun element member => Nat.lt_of_le_of_ne (atMost element member)
      fun reaches => reached ⟨element, member, reaches⟩

/-- In a list along which a number ascends, elements stand in the order of their numbers. -/
private theorem idxOf_le_idxOf_iff {α : Type} [DecidableEq α] {elements : List α}
    {position : α → Nat}
    (ascends : elements.Pairwise fun earlier later => position earlier < position later)
    {first second : α} (isFirst : first ∈ elements) (isSecond : second ∈ elements) :
    elements.idxOf first ≤ elements.idxOf second ↔ position first ≤ position second := by
  have before : ∀ {earlier later}, earlier ∈ elements → later ∈ elements →
      elements.idxOf earlier < elements.idxOf later → position earlier < position later := by
    intro earlier later isEarlier isLater lower
    have ordered := List.pairwise_iff_getElem.mp ascends _ _ (List.idxOf_lt_length_of_mem isEarlier)
      (List.idxOf_lt_length_of_mem isLater) lower
    simpa using ordered
  constructor
  · intro atMost
    rcases Nat.lt_or_eq_of_le atMost with lower | same
    · exact Nat.le_of_lt (before isFirst isSecond lower)
    · rw [(List.idxOf_inj isFirst).mp same]
  · intro atMost
    by_contra higher
    exact Nat.not_le_of_lt (before isSecond isFirst (Nat.lt_of_not_le higher)) atMost

namespace Registry

/-- How much a variant is preferred. -/
def preference (registry : Registry) (variant : SourceSetId × Markup) : Nat :=
  (registry.platform variant.1).preference

/-- The variant is the first of a list that has its text. -/
def IsFirstOfText (variants : List (SourceSetId × Markup)) (variant : SourceSetId × Markup) :
    Prop :=
  variants.find? (fun other => other.2 = variant.2) = some variant

/-- Of the variants that are the first with their text, the variant is the first of those that are
preferred most. -/
structure IsBest (registry : Registry) (variants : List (SourceSetId × Markup))
    (best : SourceSetId × Markup) : Prop where
  isFirst : IsFirstOfText variants best
  preferred : ∀ other, IsFirstOfText variants other →
    registry.preference other ≤ registry.preference best
  earliest : ∀ other, IsFirstOfText variants other →
    registry.preference other = registry.preference best →
      variants.findIdx (fun variant => variant.2 = best.2) ≤
        variants.findIdx fun variant => variant.2 = other.2

variable (registry : Registry) (variants : List (SourceSetId × Markup))

/-- The variants of a platform are those of its level if no other platform has that level. -/
private theorem isOn_eq {platform : Platform} {level : Nat}
    (only : ∀ {other : Platform}, other.preference = level ↔ other = platform) :
    (fun variant : SourceSetId × Markup => registry.platform variant.1 == platform) =
      fun variant => decide (registry.preference variant = level) := by
  funext variant
  rw [Bool.eq_iff_iff, beq_iff_eq, decide_eq_true_iff]
  exact only.symm

/-- The best variant is the first most preferred one of those whose texts no earlier one has. -/
theorem bestVariant?_eq_argmax :
    registry.bestVariant? variants = (distinctBy Prod.snd variants).argmax registry.preference := by
  rw [bestVariant?]
  generalize distinctBy Prod.snd variants = candidates
  obtain _ | ⟨first, others⟩ := candidates
  · rfl
  dsimp only
  split
  · rename_i single
    obtain rfl : others = [] := by simpa using single
    rfl
  · rw [registry.isOn_eq Platform.preference_eq_two_iff,
      registry.isOn_eq Platform.preference_eq_one_iff, Option.or_assoc]
    have atMost : ∀ variant ∈ first :: others, registry.preference variant ≤ 2 :=
      fun variant _ => Platform.preference_le_two _
    refine find?_or_eq_argmax atMost fun notCommon => ?_
    refine find?_or_eq_argmax (fun variant member => Nat.le_of_lt_succ (notCommon variant member))
      fun neither => ?_
    have lowest : registry.preference first = 0 :=
      Nat.lt_one_iff.mp (neither first List.mem_cons_self)
    rw [← find?_eq_argmax (fun variant member => Nat.le_of_lt_succ (neither variant member))
      ⟨first, List.mem_cons_self, lowest⟩, List.find?_cons_of_pos (by simpa using lowest),
      List.head?_cons]

variable {registry} {variants}

theorem bestVariant?_eq_none_iff : registry.bestVariant? variants = none ↔ variants = [] := by
  rw [bestVariant?_eq_argmax, List.argmax_eq_none]
  refine ⟨fun noFirst => List.eq_nil_iff_forall_not_mem.mpr fun variant member => ?_, ?_⟩
  · obtain ⟨first, isFirst, -⟩ : ∃ first ∈ distinctBy Prod.snd variants, first.2 = variant.2 :=
      exists_mem_distinctBy member
    exact List.not_mem_nil (noFirst ▸ isFirst)
  · rintro rfl
    rfl

theorem bestVariant?_eq_some_iff {best : SourceSetId × Markup} :
    registry.bestVariant? variants = some best ↔ registry.IsBest variants best := by
  have ascends := pairwise_findIdx_distinctBy Prod.snd variants
  have firsts : ∀ variant, variant ∈ distinctBy Prod.snd variants ↔
      IsFirstOfText variants variant := fun variant => mem_distinctBy_iff
  rw [bestVariant?_eq_argmax, List.argmax_eq_some_iff]
  constructor
  · rintro ⟨isFirst, preferred, earliest⟩
    refine ⟨(firsts best).mp isFirst,
      fun other isOther => preferred other ((firsts other).mpr isOther),
      fun other isOther same => ?_⟩
    have otherFirst := (firsts other).mpr isOther
    exact (idxOf_le_idxOf_iff ascends isFirst otherFirst).mp (earliest other otherFirst same.ge)
  · rintro ⟨isFirst, preferred, earliest⟩
    have bestFirst := (firsts best).mpr isFirst
    refine ⟨bestFirst, fun other isOther => preferred other ((firsts other).mp isOther),
      fun other isOther atLeast => (idxOf_le_idxOf_iff ascends bestFirst isOther).mpr ?_⟩
    have otherFirst := (firsts other).mp isOther
    exact earliest other otherFirst (Nat.le_antisymm (preferred other otherFirst) atLeast)

namespace IsBest

variable {best : SourceSetId × Markup}

theorem mem (isBest : registry.IsBest variants best) : best ∈ variants :=
  List.mem_of_find?_eq_some isBest.isFirst

/-- The best variant is of the platform of another first one, if no other platform has that level
and the best variant is of no higher one. -/
theorem platform_eq (isBest : registry.IsBest variants best) {other : SourceSetId × Markup}
    (isFirst : IsFirstOfText variants other) {platform : Platform} {level : Nat}
    (only : ∀ {other : Platform}, other.preference = level ↔ other = platform)
    (isOn : registry.platform other.1 = platform) (atMost : registry.preference best ≤ level) :
    registry.platform best.1 = platform := by
  have otherLevel : registry.preference other = level := only.mpr isOn
  have atLeast : level ≤ registry.preference best := otherLevel ▸ isBest.preferred other isFirst
  exact only.mp (Nat.le_antisymm atMost atLeast)

end IsBest

/-- If no two variants have one text, each is the first of its text. -/
theorem isFirstOfText_of_pairwise (apart : variants.Pairwise fun left right => left.2 ≠ right.2)
    {variant : SourceSetId × Markup} (member : variant ∈ variants) :
    IsFirstOfText variants variant := by
  have kept : variant ∈ distinctBy Prod.snd variants := (distinctBy_eq_self apart).symm ▸ member
  exact mem_distinctBy_iff.mp kept

/-- There is a best variant unless there is no variant. It is the first most preferred one of those
that are the first with their text, so it is of the common platform if one of these is, or else of
the virtual machine if one of these is. -/
theorem bestVariant?_spec (registry : Registry) (variants : List (SourceSetId × Markup)) :
    (registry.bestVariant? variants = none ↔ variants = []) ∧
    (∀ best, registry.bestVariant? variants = some best ↔ registry.IsBest variants best) ∧
    (∀ best, registry.bestVariant? variants = some best →
      best ∈ variants ∧
      (∀ root, (∀ variant ∈ variants, variant.2 = root) → best.2 = root) ∧
      ((∃ other, IsFirstOfText variants other ∧ registry.platform other.1 = .common) →
        registry.platform best.1 = .common) ∧
      ((∀ other, IsFirstOfText variants other → registry.platform other.1 ≠ .common) →
        (∃ other, IsFirstOfText variants other ∧ registry.platform other.1 = .jvm) →
          registry.platform best.1 = .jvm)) ∧
    ((variants.Pairwise fun left right => left.2 ≠ right.2) →
      ∀ variant ∈ variants, IsFirstOfText variants variant) := by
  refine ⟨bestVariant?_eq_none_iff, fun best => bestVariant?_eq_some_iff, fun best found => ?_,
    fun apart variant => isFirstOfText_of_pairwise apart⟩
  have isBest := bestVariant?_eq_some_iff.mp found
  refine ⟨isBest.mem, fun root same => same best isBest.mem, ?_, ?_⟩
  · rintro ⟨other, isFirst, isCommon⟩
    exact isBest.platform_eq isFirst Platform.preference_eq_two_iff isCommon
      (Platform.preference_le_two _)
  · rintro notCommon ⟨other, isFirst, isJvm⟩
    have notTwo : registry.preference best ≠ 2 :=
      mt Platform.preference_eq_two_iff.mp (notCommon best isBest.isFirst)
    exact isBest.platform_eq isFirst Platform.preference_eq_one_iff isJvm
      (Nat.le_of_lt_succ (Nat.lt_of_le_of_ne (Platform.preference_le_two _) notTwo))

/-- The source sets of a native, a browser and a common platform. -/
def threePlatforms : Registry :=
  .ofList
    [⟨⟨"shapes", "apple"⟩, "apple", .native⟩, ⟨⟨"shapes", "browser"⟩, "browser", .js⟩,
      ⟨⟨"shapes", "common"⟩, "common", .common⟩]

/-- Variants of a text in the order of their source sets, the last of which repeats the second. -/
def repeatedTexts : List (SourceSetId × Markup) :=
  [(⟨"shapes", "apple"⟩, .text "A box for Apple."), (⟨"shapes", "browser"⟩, .text "A box."),
    (⟨"shapes", "common"⟩, .text "A box.")]

/-- The native variant is the first one, and the common one is not the first of its text. -/
theorem isBest_repeatedTexts :
    threePlatforms.IsBest repeatedTexts (⟨"shapes", "apple"⟩, .text "A box for Apple.") := by
  obtain ⟨-, isBest, -⟩ := bestVariant?_spec threePlatforms repeatedTexts
  exact (isBest _).mp (by decide +kernel)

/-- The texts differ and one is of the common platform, but the best variant has another text. -/
theorem exists_common_not_best :
    (repeatedTexts.Pairwise fun earlier later => compare earlier.1 later.1 = .lt) ∧
      (∃ left ∈ repeatedTexts, ∃ right ∈ repeatedTexts, left.2 ≠ right.2) ∧
      (∃ variant ∈ repeatedTexts, threePlatforms.platform variant.1 = .common) ∧
      ∃ best, threePlatforms.bestVariant? repeatedTexts = some best ∧
        ∀ variant ∈ repeatedTexts, threePlatforms.platform variant.1 = .common →
          variant.2 ≠ best.2 := by
  refine ⟨by decide +kernel, by decide +kernel, by decide +kernel,
    (⟨"shapes", "apple"⟩, .text "A box for Apple."), by decide +kernel, by decide +kernel⟩

end Registry

end DocPages
