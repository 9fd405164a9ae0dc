import DocPages.Collection.Grouping
import Mathlib.Data.List.Induction
import Mathlib.Data.List.Nodup

/-!
# Groups and first items

The groups of a list are the fibres of its key, listed by the first appearance of their keys, so
grouping keeps every item exactly once, and grouping what the groups hold changes nothing. Among the
first items of every key, each key of the list stands once.
-/

namespace DocPages

variable {α κ : Type} [DecidableEq κ]

/-! ## Images -/

/-- Lists are equal if their images are, as long as the images tell the items apart. -/
theorem eq_of_map_eq {α β : Type} {change : α → β} {left right : List α}
    (apart : ∀ first ∈ left, ∀ second ∈ right, change first = change second → first = second)
    (same : left.map change = right.map change) : left = right := by
  induction left generalizing right with
  | nil => exact (List.map_eq_nil_iff.mp same.symm).symm
  | cons first left ih =>
      obtain ⟨second, right, rfl, sameFirst, sameRest⟩ := List.map_eq_cons_iff.mp same.symm
      rw [apart first List.mem_cons_self second List.mem_cons_self sameFirst.symm,
        ih (fun earlier isEarlier later isLater => apart earlier (List.mem_cons_of_mem _ isEarlier)
          later (List.mem_cons_of_mem _ isLater)) sameRest.symm]

/-! ## First items -/

private theorem mem_distinctByAfter {key : α → κ} {seen : List κ} {items : List α} {item : α}
    (member : item ∈ distinctByAfter key seen items) : item ∈ items ∧ key item ∉ seen := by
  induction items generalizing seen with
  | nil => simp [distinctByAfter] at member
  | cons head tail ih =>
      rw [distinctByAfter] at member
      split at member
      · exact ⟨List.mem_cons_of_mem head (ih member).1, (ih member).2⟩
      · rename_i fresh
        rcases List.mem_cons.mp member with rfl | later
        · exact ⟨List.mem_cons_self, fresh⟩
        · obtain ⟨inTail, unseen⟩ := ih later
          exact ⟨List.mem_cons_of_mem head inTail, fun old =>
            unseen (List.mem_cons_of_mem (key head) old)⟩

private theorem exists_mem_distinctByAfter {key : α → κ} {seen : List κ} {items : List α} {item : α}
    (member : item ∈ items) (unseen : key item ∉ seen) :
    ∃ first ∈ distinctByAfter key seen items, key first = key item := by
  induction items generalizing seen with
  | nil => simp at member
  | cons head tail ih =>
      rw [distinctByAfter]
      by_cases sameKey : key head = key item
      · rw [if_neg (sameKey ▸ unseen)]
        exact ⟨head, List.mem_cons_self, sameKey⟩
      · have inTail : item ∈ tail := by
          rcases List.mem_cons.mp member with rfl | inTail
          · exact (sameKey rfl).elim
          · exact inTail
        split
        · exact ih inTail unseen
        · have stillUnseen : key item ∉ key head :: seen := by simp [unseen, Ne.symm sameKey]
          obtain ⟨first, kept, equality⟩ := ih inTail stillUnseen
          exact ⟨first, List.mem_cons_of_mem head kept, equality⟩

private theorem pairwise_distinctByAfter (key : α → κ) (seen : List κ) (items : List α) :
    (distinctByAfter key seen items).Pairwise fun first second => key first ≠ key second := by
  induction items generalizing seen with
  | nil => exact .nil
  | cons head tail ih =>
      rw [distinctByAfter]
      split
      · exact ih seen
      · refine .cons (fun later member equality => ?_) (ih (key head :: seen))
        exact (mem_distinctByAfter member).2 (equality ▸ List.mem_cons_self)

private theorem distinctByAfter_append_singleton (key : α → κ) (seen : List κ) (items : List α)
    (item : α) :
    distinctByAfter key seen (items ++ [item]) =
      distinctByAfter key seen items ++
        if key item ∈ seen ∨ key item ∈ items.map key then [] else [item] := by
  induction items generalizing seen with
  | nil => by_cases old : key item ∈ seen <;> simp [distinctByAfter, old]
  | cons head tail ih =>
      rw [List.cons_append, distinctByAfter, distinctByAfter]
      by_cases old : key head ∈ seen
      · rw [if_pos old, if_pos old, ih]
        by_cases sameKey : key item = key head
        · simp [sameKey, old]
        · simp [sameKey]
      · rw [if_neg old, if_neg old, ih, List.cons_append]
        simp only [List.mem_cons, List.map_cons, or_assoc, or_left_comm]

/-- The first items of the keys are items of the list. -/
theorem mem_of_mem_distinctBy {key : α → κ} {items : List α} {item : α}
    (member : item ∈ distinctBy key items) : item ∈ items :=
  (mem_distinctByAfter member).1

/-- Every item has a first item of its key. -/
theorem exists_mem_distinctBy {key : α → κ} {items : List α} {item : α} (member : item ∈ items) :
    ∃ first ∈ distinctBy key items, key first = key item :=
  exists_mem_distinctByAfter member (by simp)

/-- The first items of the keys have different keys. -/
theorem pairwise_distinctBy (key : α → κ) (items : List α) :
    (distinctBy key items).Pairwise fun first second => key first ≠ key second :=
  pairwise_distinctByAfter key [] items

/-- An item at the end of a list is the first of its key unless the key occurs before. -/
theorem distinctBy_append_singleton (key : α → κ) (items : List α) (item : α) :
    distinctBy key (items ++ [item]) =
      distinctBy key items ++ if key item ∈ items.map key then [] else [item] := by
  simpa [distinctBy] using distinctByAfter_append_singleton key [] items item

/-- The items that are kept are those that are found first when their key is looked up. -/
theorem mem_distinctBy_iff {key : α → κ} {items : List α} {item : α} :
    item ∈ distinctBy key items ↔ items.find? (fun other => key other = key item) = some item := by
  induction items using List.reverseRecOn with
  | nil => simp [distinctBy, distinctByAfter]
  | append_singleton items last ih =>
      rw [distinctBy_append_singleton, List.mem_append, ih, List.find?_append]
      by_cases found : ∃ other ∈ items, key other = key item
      · obtain ⟨other, isOther⟩ : ∃ other,
            items.find? (fun other => key other = key item) = some other := by
          rw [← Option.isSome_iff_exists, List.find?_isSome]
          simpa using found
        rw [isOther, Option.some_or]
        refine or_iff_left_of_imp fun isLast => ?_
        -- An item that is added at the end has a key that was not found.
        split at isLast
        · simp at isLast
        · rename_i fresh
          obtain rfl := List.mem_singleton.mp isLast
          exact (fresh (List.mem_map.mpr found)).elim
      · have missing : items.find? (fun other => key other = key item) = none := by
          simpa using found
        rw [missing, Option.none_or]
        by_cases isLast : item = last
        · subst isLast
          have fresh : key item ∉ items.map key := mt List.mem_map.mp found
          simp [fresh]
        · have different : ¬ last = item := Ne.symm isLast
          split <;> simp [isLast, different]

/-- The first items that pass a test include one of a key exactly if the first item of that key
passes it, whatever items of the key come later. -/
theorem exists_mem_filter_distinctBy_iff {key : α → κ} {items : List α} {test : α → Bool}
    {wanted : κ} :
    (∃ first ∈ (distinctBy key items).filter test, key first = wanted) ↔
      (items.find? fun item => key item = wanted).any test := by
  constructor
  · rintro ⟨first, member, rfl⟩
    obtain ⟨kept, passes⟩ := List.mem_filter.mp member
    rw [mem_distinctBy_iff.mp kept]
    exact passes
  · intro passes
    cases found : items.find? fun item => key item = wanted with
    | none => simp [found] at passes
    | some first =>
        rw [found, Option.any_some] at passes
        obtain rfl : key first = wanted := by simpa using List.find?_some found
        exact ⟨first, List.mem_filter.mpr ⟨mem_distinctBy_iff.mpr found, passes⟩, rfl⟩

/-- Items of different keys are all kept. -/
theorem distinctBy_eq_self {key : α → κ} {items : List α}
    (apart : items.Pairwise fun first second => key first ≠ key second) :
    distinctBy key items = items := by
  induction items using List.reverseRecOn with
  | nil => rfl
  | append_singleton items last ih =>
      obtain ⟨apart, -, fresh⟩ := List.pairwise_append.mp apart
      have newKey : key last ∉ items.map key := by
        rintro member
        obtain ⟨other, inItems, same⟩ := List.mem_map.mp member
        exact fresh other inItems last List.mem_cons_self same
      rw [distinctBy_append_singleton, ih apart, if_neg newKey]

/-! ## Keys in order of appearance -/

/-- The keys of a list in order of first appearance. -/
def keysInOrder (key : α → κ) (items : List α) : List κ :=
  distinctBy id (items.map key)

theorem nodup_keysInOrder (key : α → κ) (items : List α) : (keysInOrder key items).Nodup :=
  pairwise_distinctBy id (items.map key)

@[simp]
theorem mem_keysInOrder {key : α → κ} {items : List α} {value : κ} :
    value ∈ keysInOrder key items ↔ value ∈ items.map key := by
  constructor
  · exact mem_of_mem_distinctBy
  · intro member
    obtain ⟨first, kept, rfl⟩ : ∃ first ∈ keysInOrder key items, first = value :=
      exists_mem_distinctBy member
    exact kept

/-- A key among those of some elements has a first element. -/
theorem exists_find?_of_mem_keysInOrder {key : α → κ} {items : List α} {value : κ}
    (isKey : value ∈ keysInOrder key items) :
    ∃ first, items.find? (fun item => key item = value) = some first ∧ key first = value := by
  obtain ⟨first, found⟩ : ∃ first, items.find? (fun item => key item = value) = some first := by
    rw [← Option.isSome_iff_exists, List.find?_isSome]
    simpa using mem_keysInOrder.mp isKey
  exact ⟨first, found, by simpa using List.find?_some found⟩

/-- Lists of the same items have the same keys. -/
theorem keysInOrder_perm (key : α → κ) {left right : List α} (perm : left.Perm right) :
    (keysInOrder key left).Perm (keysInOrder key right) := by
  rw [List.perm_ext_iff_of_nodup (nodup_keysInOrder key left) (nodup_keysInOrder key right)]
  intro value
  simp only [mem_keysInOrder]
  exact (perm.map key).mem_iff

theorem keysInOrder_append_singleton (key : α → κ) (items : List α) (item : α) :
    keysInOrder key (items ++ [item]) =
      keysInOrder key items ++ if key item ∈ keysInOrder key items then [] else [key item] := by
  simp only [keysInOrder, List.map_append, List.map_cons, List.map_nil]
  rw [distinctBy_append_singleton]
  simp only [id_eq, List.map_id]
  congr 1
  exact if_congr mem_keysInOrder.symm rfl rfl

/-! ## Groups -/

/-- Adding an item to the groups of a family extends the group of its key, or opens it. -/
private theorem addToGroup_map {keys : List κ} (nodup : keys.Nodup) (members : κ → List α)
    (value : κ) (item : α) :
    addToGroup value item (keys.map fun key => (key, members key)) =
      (keys.map fun key => (key, members key ++ if key = value then [item] else [])) ++
        if value ∈ keys then [] else [(value, [item])] := by
  induction keys with
  | nil => simp [addToGroup]
  | cons head tail ih =>
      obtain ⟨fresh, tailNodup⟩ := List.nodup_cons.mp nodup
      rw [List.map_cons, addToGroup]
      by_cases found : head = value
      · subst found
        have unchanged : ∀ key ∈ tail, (key, members key) =
            (key, members key ++ if key = head then [item] else []) := by
          intro key member
          have different : key ≠ head := fun equality => fresh (equality ▸ member)
          simp [different]
        simp [List.map_congr_left unchanged]
      · rw [if_neg found, ih tailNodup]
        simp [found, Ne.symm found]

private theorem groupByFirstSeenKeyed_append_singleton (key : α → κ) (items : List α) (item : α) :
    groupByFirstSeenKeyed key (items ++ [item]) =
      addToGroup (key item) item (groupByFirstSeenKeyed key items) := by
  simp [groupByFirstSeenKeyed]

/-- The groups of a list are the fibres of its key, in order of first appearance. -/
theorem groupByFirstSeenKeyed_eq (key : α → κ) (items : List α) :
    groupByFirstSeenKeyed key items =
      (keysInOrder key items).map fun value =>
        (value, items.filter fun item => key item = value) := by
  induction items using List.reverseRecOn with
  | nil => rfl
  | append_singleton items item ih =>
      rw [groupByFirstSeenKeyed_append_singleton, ih, addToGroup_map (nodup_keysInOrder key items),
        keysInOrder_append_singleton, List.map_append]
      congr 1
      · refine List.map_congr_left fun value _ => ?_
        by_cases isKey : key item = value
        · simp [List.filter_append, isKey]
        · simp [List.filter_append, isKey, Ne.symm isKey]
      · split
        · rfl
        · rename_i fresh
          have nothing : items.filter (fun other => key other = key item) = [] := by
            rw [List.filter_eq_nil_iff]
            intro other member
            simp only [mem_keysInOrder, List.mem_map, not_exists, not_and] at fresh
            simpa using fresh other member
          simp [List.filter_append, nothing]

theorem keys_groupByFirstSeenKeyed (key : α → κ) (items : List α) :
    (groupByFirstSeenKeyed key items).map Prod.fst = keysInOrder key items := by
  rw [groupByFirstSeenKeyed_eq, List.map_map]
  exact List.map_id (keysInOrder key items)

theorem eq_filter_of_mem_groupByFirstSeenKeyed {key : α → κ} {items : List α} {group : κ × List α}
    (isGroup : group ∈ groupByFirstSeenKeyed key items) :
    group.2 = items.filter fun item => key item = group.1 := by
  rw [groupByFirstSeenKeyed_eq] at isGroup
  obtain ⟨value, -, rfl⟩ := List.mem_map.mp isGroup
  rfl

/-- A group holds the items of its key. -/
theorem mem_groupByFirstSeen {key : α → κ} {items group : List α} :
    group ∈ groupByFirstSeen key items ↔
      ∃ value ∈ items.map key, items.filter (fun item => key item = value) = group := by
  simp only [groupByFirstSeen, groupByFirstSeenKeyed_eq, List.map_map, List.mem_map,
    mem_keysInOrder, Function.comp_apply]

/-- The items of one group have one key. -/
theorem key_eq_of_mem_group {key : α → κ} {items group : List α}
    (isGroup : group ∈ groupByFirstSeen key items) {first second : α}
    (firstMember : first ∈ group) (secondMember : second ∈ group) : key first = key second := by
  obtain ⟨value, -, rfl⟩ := mem_groupByFirstSeen.mp isGroup
  simp only [List.mem_filter, decide_eq_true_eq] at firstMember secondMember
  exact firstMember.2.trans secondMember.2.symm

/-- No group is empty. -/
theorem ne_nil_of_mem_groupByFirstSeen {key : α → κ} {items group : List α}
    (isGroup : group ∈ groupByFirstSeen key items) : group ≠ [] := by
  obtain ⟨value, isKey, rfl⟩ := mem_groupByFirstSeen.mp isGroup
  obtain ⟨item, member, rfl⟩ := List.mem_map.mp isKey
  exact List.ne_nil_of_mem (List.mem_filter.mpr ⟨member, by simp⟩)

private theorem addToGroup_flatMap_perm (value : κ) (item : α) (groups : List (κ × List α)) :
    ((addToGroup value item groups).flatMap Prod.snd).Perm (groups.flatMap Prod.snd ++ [item]) := by
  induction groups with
  | nil => simp [addToGroup]
  | cons group groups ih =>
      rw [addToGroup]
      split
      · have swapped :
            ([item] ++ groups.flatMap Prod.snd).Perm (groups.flatMap Prod.snd ++ [item]) :=
          List.perm_append_comm
        simpa using swapped.append_left group.2
      · simpa using ih.append_left group.2

/-- The groups hold the items of the list, each once. -/
theorem flatten_groupByFirstSeen_perm (key : α → κ) (items : List α) :
    (groupByFirstSeen key items).flatten.Perm items := by
  rw [groupByFirstSeen, ← List.flatMap_def]
  induction items using List.reverseRecOn with
  | nil => exact .nil
  | append_singleton items item ih =>
      rw [groupByFirstSeenKeyed_append_singleton]
      exact (addToGroup_flatMap_perm (key item) item _).trans (ih.append_right [item])

/-- One group has the items of a key of the list, and it has all of them in order. -/
theorem filter_groupByFirstSeen {key : α → κ} {items : List α} {value : κ}
    (isKey : value ∈ items.map key) :
    (groupByFirstSeen key items).filter (fun group => group.any fun item => key item = value) =
      [items.filter fun item => key item = value] := by
  have isGroupOf : ∀ other ∈ keysInOrder key items,
      ((fun group => group.any fun item => decide (key item = value)) ∘ Prod.snd ∘
        fun other => (other, items.filter fun item => key item = other)) other =
        (other == value) := by
    intro other member
    obtain ⟨item, inItems, rfl⟩ := List.mem_map.mp (mem_keysInOrder.mp member)
    rw [Bool.eq_iff_iff]
    simp only [Function.comp_apply, List.any_filter, List.any_eq_true, Bool.and_eq_true,
      decide_eq_true_eq, beq_iff_eq]
    exact ⟨fun ⟨_, _, sameKey, isValue⟩ => sameKey.symm.trans isValue,
      fun isValue => ⟨item, inItems, rfl, isValue⟩⟩
  have once : (keysInOrder key items).count value = 1 :=
    List.count_eq_one_of_mem (nodup_keysInOrder key items) (mem_keysInOrder.mpr isKey)
  rw [groupByFirstSeen, groupByFirstSeenKeyed_eq, List.map_map, List.filter_map,
    List.filter_congr isGroupOf, List.filter_beq, once]
  rfl

/-- The groups keep the order of items of one key. -/
theorem filter_flatten_groupByFirstSeen {key : α → κ} {items : List α} {test : α → Bool}
    {value : κ} (ofKey : ∀ item, test item → key item = value) :
    (groupByFirstSeen key items).flatten.filter test = items.filter test := by
  let isOfKey := fun group : List α => group.any fun item => decide (key item = value)
  have onlyOfKey : ∀ groups : List (List α),
      groups.flatten.filter test = (groups.filter isOfKey).flatten.filter test := by
    intro groups
    induction groups with
    | nil => rfl
    | cons head tail ih =>
        rw [List.flatten_cons, List.filter_append, ih, List.filter_cons]
        split
        · rw [List.flatten_cons, List.filter_append]
        · rename_i other
          have none : head.filter test = [] := List.filter_eq_nil_iff.mpr fun item member passes =>
            other (List.any_eq_true.mpr ⟨item, member, by simpa using ofKey item passes⟩)
          rw [none, List.nil_append]
  rw [onlyOfKey]
  by_cases isKey : value ∈ items.map key
  · rw [filter_groupByFirstSeen isKey, List.flatten_singleton, List.filter_filter]
    refine List.filter_congr fun item _ => ?_
    cases passes : test item with
    | false => rfl
    | true => simpa using ofKey item passes
  · have noGroup : (groupByFirstSeen key items).filter isOfKey = [] := by
      refine List.filter_eq_nil_iff.mpr fun group isGroup isOf => ?_
      obtain ⟨item, inGroup, sameKey⟩ := List.any_eq_true.mp isOf
      have inItems := (flatten_groupByFirstSeen_perm key items).mem_iff.mp
        (List.mem_flatten.mpr ⟨group, isGroup, inGroup⟩)
      exact isKey (List.mem_map.mpr ⟨item, inItems, by simpa using sameKey⟩)
    rw [noGroup]
    refine (List.filter_eq_nil_iff.mpr fun item member passes => ?_).symm
    exact isKey (List.mem_map.mpr ⟨item, member, ofKey item passes⟩)

/-- Grouping goes along a change of the items that keeps what the key reads. -/
theorem groupByFirstSeen_map {β : Type} (key : α → κ) (change : β → α) (items : List β) :
    groupByFirstSeen key (items.map change) =
      (groupByFirstSeen (fun item => key (change item)) items).map (List.map change) := by
  have sameKeys : keysInOrder key (items.map change) =
      keysInOrder (fun item => key (change item)) items := by
    rw [keysInOrder, keysInOrder, List.map_map]
    rfl
  simp only [groupByFirstSeen, groupByFirstSeenKeyed_eq, sameKeys, List.map_map, List.filter_map]
  rfl

/-! ## Groups in order -/

/-- The keys stand in the order of their first items. -/
theorem pairwise_keysInOrder (key : α → κ) (items : List α) :
    (keysInOrder key items).Pairwise fun earlier later =>
      items.findIdx (fun item => key item = earlier) <
        items.findIdx (fun item => key item = later) := by
  induction items using List.reverseRecOn with
  | nil => exact .nil
  | append_singleton items item ih =>
      have found : ∀ value ∈ keysInOrder key items,
          items.findIdx (fun other => key other = value) < items.length := by
        intro value member
        rw [List.findIdx_lt_length]
        simpa using member
      rw [keysInOrder_append_singleton, List.pairwise_append]
      refine ⟨ih.imp_of_mem fun {earlier later} isEarlier isLater before => ?_, ?_, ?_⟩
      · rw [List.findIdx_append, List.findIdx_append, if_pos (found earlier isEarlier),
          if_pos (found later isLater)]
        exact before
      · split <;> simp
      · intro earlier isEarlier later isLater
        split at isLater
        · simp at isLater
        · -- A new key is found behind the items so far.
          rename_i fresh
          obtain rfl := List.mem_singleton.mp isLater
          have missing : ¬ items.findIdx (fun other => key other = key item) < items.length := by
            rw [List.findIdx_lt_length]
            simpa using fresh
          rw [List.findIdx_append, List.findIdx_append, if_pos (found earlier isEarlier),
            if_neg missing]
          exact Nat.lt_of_lt_of_le (found earlier isEarlier) (Nat.le_add_left _ _)

theorem map_distinctBy (key : α → κ) (items : List α) :
    (distinctBy key items).map key = keysInOrder key items := by
  induction items using List.reverseRecOn with
  | nil => rfl
  | append_singleton items item ih =>
      rw [distinctBy_append_singleton, keysInOrder_append_singleton, List.map_append, ih]
      simp only [mem_keysInOrder]
      split <;> simp

/-- The first items of the keys stand in the order of the list. -/
theorem pairwise_findIdx_distinctBy (key : α → κ) (items : List α) :
    (distinctBy key items).Pairwise fun earlier later =>
      items.findIdx (fun item => key item = key earlier) <
        items.findIdx (fun item => key item = key later) := by
  have keys := pairwise_keysInOrder key items
  rw [← map_distinctBy, List.pairwise_map] at keys
  exact keys

/-- The groups stand in the order of their first items. -/
theorem pairwise_groupByFirstSeen (key : α → κ) (items : List α) :
    (groupByFirstSeen key items).Pairwise fun earlier later =>
      ∀ first ∈ earlier, ∀ second ∈ later,
        items.findIdx (fun item => key item = key first) <
          items.findIdx (fun item => key item = key second) := by
  rw [groupByFirstSeen, groupByFirstSeenKeyed_eq, List.map_map, List.pairwise_map]
  refine (pairwise_keysInOrder key items).imp fun {earlier later} before first isFirst
    second isSecond => ?_
  simp only [Function.comp_apply, List.mem_filter, decide_eq_true_eq] at isFirst isSecond
  rw [isFirst.2, isSecond.2]
  exact before

/-- What is found earlier among the values of some items comes from an earlier item. -/
theorem findIdx_lt_findIdx_of_filterMap {β : Type} {value? : α → Option β} {items : List α}
    {first second : β → Bool}
    (before : (items.filterMap value?).findIdx first < (items.filterMap value?).findIdx second) :
    items.findIdx (fun item => (value? item).any first) <
      items.findIdx fun item => (value? item).any second := by
  induction items with
  | nil => simp at before
  | cons item items ih =>
      cases found : value? item with
      | none =>
          rw [List.filterMap_cons_none found] at before
          simpa [List.findIdx_cons, found] using ih before
      | some value =>
          rw [List.filterMap_cons_some found, List.findIdx_cons, List.findIdx_cons] at before
          rw [List.findIdx_cons, List.findIdx_cons, found, Option.any_some, Option.any_some]
          cases isSecond : second value with
          | true => simp [isSecond] at before
          | false =>
              cases isFirst : first value with
              | true => simp
              | false =>
                  simp only [isFirst, isSecond, cond_false, Nat.add_lt_add_iff_right] at before ⊢
                  exact ih before

/-! ## Regrouping -/

private theorem addToGroup_append {value : κ} (item : α) {groups : List (κ × List α)}
    (fresh : value ∉ groups.map Prod.fst) (rest : List (κ × List α)) :
    addToGroup value item (groups ++ rest) = groups ++ addToGroup value item rest := by
  induction groups with
  | nil => rfl
  | cons group groups ih =>
      obtain ⟨different, fresh⟩ := not_or.mp (mt List.mem_cons.mpr fresh)
      rw [List.cons_append, addToGroup, if_neg (Ne.symm different), ih fresh, List.cons_append]

/-- Items of one new key form the last group. -/
private theorem groupByFirstSeenKeyed_append {key : α → κ} {items : List α} {value : κ}
    (fresh : value ∉ (groupByFirstSeenKeyed key items).map Prod.fst) {group : List α}
    (nonempty : group ≠ []) (uniform : ∀ item ∈ group, key item = value) :
    groupByFirstSeenKeyed key (items ++ group) =
      groupByFirstSeenKeyed key items ++ [(value, group)] := by
  induction group using List.reverseRecOn with
  | nil => exact (nonempty rfl).elim
  | append_singleton group last ih =>
      obtain ⟨uniform, lastKey⟩ := List.forall_mem_append.mp uniform
      rw [← List.append_assoc, groupByFirstSeenKeyed_append_singleton,
        lastKey last List.mem_cons_self]
      by_cases empty : group = []
      · subst empty
        rw [List.append_nil, ← List.append_nil (groupByFirstSeenKeyed key items),
          addToGroup_append last fresh, List.append_nil]
        rfl
      · rw [ih empty uniform, addToGroup_append last fresh, addToGroup, if_pos rfl]

/-- Groups of different keys are the groups of what they hold. -/
theorem groupByFirstSeenKeyed_flatMap {key : α → κ} {groups : List (κ × List α)}
    (nodup : (groups.map Prod.fst).Nodup) (nonempty : ∀ group ∈ groups, group.2 ≠ [])
    (uniform : ∀ group ∈ groups, ∀ item ∈ group.2, key item = group.1) :
    groupByFirstSeenKeyed key (groups.flatMap Prod.snd) = groups := by
  induction groups using List.reverseRecOn with
  | nil => rfl
  | append_singleton groups group ih =>
      obtain ⟨nonempty, lastNonempty⟩ := List.forall_mem_append.mp nonempty
      obtain ⟨uniform, lastUniform⟩ := List.forall_mem_append.mp uniform
      rw [List.map_append, List.nodup_append] at nodup
      obtain ⟨nodup, -, apart⟩ := nodup
      have grouped := ih nodup nonempty uniform
      have fresh : group.1 ∉ (groupByFirstSeenKeyed key (groups.flatMap Prod.snd)).map Prod.fst :=
        fun member => apart _ (grouped ▸ member) _ List.mem_cons_self rfl
      rw [List.flatMap_append, List.flatMap_singleton, groupByFirstSeenKeyed_append fresh
        (lastNonempty group List.mem_cons_self) (lastUniform group List.mem_cons_self), grouped]

/-- Items of different keys are in groups of their own. -/
theorem groupByFirstSeen_eq_singletons {key : α → κ} {items : List α}
    (apart : (items.map key).Nodup) :
    groupByFirstSeen key items = items.map fun item => [item] := by
  have keyed : groupByFirstSeenKeyed key items = items.map fun item => (key item, [item]) := by
    let groups := items.map fun item => (key item, [item])
    have grouped : groupByFirstSeenKeyed key (groups.flatMap Prod.snd) = groups :=
      groupByFirstSeenKeyed_flatMap (by simpa [groups, Function.comp_def] using apart)
        (by simp [groups]) (by simp [groups])
    simpa [groups, List.flatMap_map] using grouped
  rw [groupByFirstSeen, keyed, List.map_map]
  rfl

/-- Grouping what the groups hold changes nothing. -/
theorem groupByFirstSeenKeyed_flatMap_self (key : α → κ) (items : List α) :
    groupByFirstSeenKeyed key ((groupByFirstSeenKeyed key items).flatMap Prod.snd) =
      groupByFirstSeenKeyed key items := by
  refine groupByFirstSeenKeyed_flatMap ?_ (fun group isGroup => ?_)
    fun group isGroup item member => ?_
  · rw [keys_groupByFirstSeenKeyed]
    exact nodup_keysInOrder key items
  · exact ne_nil_of_mem_groupByFirstSeen (List.mem_map_of_mem isGroup)
  · rw [eq_filter_of_mem_groupByFirstSeenKeyed isGroup] at member
    simpa using (List.mem_filter.mp member).2

theorem groupByFirstSeen_flatten (key : α → κ) (items : List α) :
    groupByFirstSeen key (groupByFirstSeen key items).flatten = groupByFirstSeen key items := by
  have keyed := groupByFirstSeenKeyed_flatMap_self key items
  rw [List.flatMap_def] at keyed
  exact congrArg (List.map Prod.snd) keyed

/-- The groups of a list have different keys, those of its items, in the order in which the keys are
first seen. A group holds all items of its key as they follow one another in the list, of which
there is at least one. Joined, the groups hold the items of the list, each once, and grouping them
again gives the same groups. -/
theorem groups_of_list (key : α → κ) (items : List α) :
    let groups := groupByFirstSeenKeyed key items
    (groups.map Prod.fst).Nodup ∧
      (∀ value, value ∈ groups.map Prod.fst ↔ ∃ item ∈ items, key item = value) ∧
      (groups.Pairwise fun earlier later =>
        items.findIdx (fun item => key item = earlier.1) <
          items.findIdx (fun item => key item = later.1)) ∧
      (∀ group ∈ groups, group.2 = items.filter fun item => key item = group.1) ∧
      (∀ group ∈ groups, group.2 ≠ []) ∧
      (groups.flatMap Prod.snd).Perm items ∧
      groupByFirstSeenKeyed key (groups.flatMap Prod.snd) = groups := by
  refine ⟨?_, fun value => ?_, ?_, fun group => eq_filter_of_mem_groupByFirstSeenKeyed,
    fun group isGroup => ne_nil_of_mem_groupByFirstSeen (List.mem_map_of_mem isGroup), ?_,
    groupByFirstSeenKeyed_flatMap_self key items⟩
  · rw [keys_groupByFirstSeenKeyed]
    exact nodup_keysInOrder key items
  · rw [keys_groupByFirstSeenKeyed, mem_keysInOrder, List.mem_map]
  · have keys := pairwise_keysInOrder key items
    rwa [← keys_groupByFirstSeenKeyed, List.pairwise_map] at keys
  · rw [List.flatMap_def]
    exact flatten_groupByFirstSeen_perm key items

/-- Numbers by their parity: the group of the odd ones is opened first. -/
theorem groups_of_list_parity :
    (1, [3, 1, 1, 5]) ∈ groupByFirstSeenKeyed (· % 2) [3, 1, 4, 1, 5] ∧
      [3, 1, 1, 5] = [3, 1, 4, 1, 5].filter fun number => number % 2 = 1 := by
  have listed : (1, [3, 1, 1, 5]) ∈ groupByFirstSeenKeyed (· % 2) [3, 1, 4, 1, 5] := by decide
  obtain ⟨-, -, -, members, -⟩ := groups_of_list (· % 2) [3, 1, 4, 1, 5]
  exact ⟨listed, members _ listed⟩

end DocPages
