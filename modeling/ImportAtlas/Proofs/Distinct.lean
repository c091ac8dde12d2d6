import Mathlib.Data.List.Induction
import Mathlib.Data.List.Nodup

/-!
# Lists without repetition

Names may be equal without being identical, so repetition is a matter of the equality in use.
Dropping repeated items keeps the first of each kind.
-/

namespace ImportAtlas

variable {α : Type} [BEq α]

/-- No two items of a list are equal. -/
def Distinct (items : List α) : Prop :=
  items.Pairwise fun earlier later => (earlier == later) = false

namespace Distinct

/-- Two lists without repetition that share no item form one. -/
theorem append {left right : List α} (leftDistinct : Distinct left) (rightDistinct : Distinct right)
    (apart : ∀ first ∈ left, ∀ second ∈ right, (first == second) = false) :
    Distinct (left ++ right) :=
  List.pairwise_append.2 ⟨leftDistinct, rightDistinct, apart⟩

/-- A new item may be added at the end. -/
theorem concat [EquivBEq α] {items : List α} {item : α} (distinct : Distinct items)
    (fresh : items.contains item = false) : Distinct (items ++ [item]) := by
  apply distinct.append (List.pairwise_singleton _ _)
  intro first member second isItem
  rw [List.mem_singleton.1 isItem, Bool.eq_false_iff]
  intro equal
  rw [List.contains_eq_any_beq, List.any_eq_false] at fresh
  exact fresh first member (BEq.symm equal)

theorem nodup [LawfulBEq α] {items : List α} (distinct : Distinct items) : items.Nodup := by
  apply distinct.imp
  intro earlier later different
  simpa using different

end Distinct

/-! ## The first item of each kind -/

section Firsts

variable {β κ : Type} [BEq κ] (key : β → κ)

/-- The first item under each key. -/
def firstsBy (items : List β) : List β :=
  items.eraseDupsBy fun later first => key later == key first

@[simp] theorem firstsBy_nil : firstsBy key [] = [] := rfl

theorem firstsBy_cons (first : β) (rest : List β) :
    firstsBy key (first :: rest) =
      first :: firstsBy key (rest.filter fun other => !key other == key first) := by
  rw [firstsBy, List.eraseDupsBy_cons, firstsBy]
  simp

/-- Induction on what is left when the first item and all with the same key are taken away. -/
theorem firstsBy_induct (property : List β → Prop) (nil : property [])
    (cons : ∀ first rest, property (rest.filter fun other => !key other == key first) →
      property (first :: rest)) (items : List β) : property items := by
  match items with
  | [] => exact nil
  | first :: rest =>
      exact cons first rest
        (firstsBy_induct property nil cons (rest.filter fun other => !key other == key first))
termination_by items.length
decreasing_by
  exact Nat.lt_succ_of_le (List.length_filter_le _ _)

/-- The keys of the first items are all keys, each once. -/
theorem map_firstsBy (items : List β) :
    (firstsBy key items).map key = (items.map key).eraseDups := by
  induction items using firstsBy_induct key with
  | nil => rfl
  | cons first rest ih =>
      rw [firstsBy_cons, List.map_cons, ih, List.map_cons, List.eraseDups_cons, List.filter_map]
      rfl

theorem firstsBy_subset (items : List β) : firstsBy key items ⊆ items := by
  induction items using firstsBy_induct key with
  | nil => exact List.Subset.refl _
  | cons first rest ih =>
      rw [firstsBy_cons]
      exact List.cons_subset_cons first (List.Subset.trans ih List.filter_sublist.subset)

end Firsts

/-- Induction on what is left when the first item and all that equal it are taken away, which is
how repeated items are dropped. -/
theorem eraseDups_induct (property : List α → Prop) (nil : property [])
    (cons : ∀ first rest, property (rest.filter fun other => !other == first) →
      property (first :: rest)) (items : List α) : property items :=
  firstsBy_induct id property nil cons items

theorem mem_of_mem_eraseDups {items : List α} {item : α} (member : item ∈ items.eraseDups) :
    item ∈ items :=
  firstsBy_subset id items member

theorem contains_eraseDups [EquivBEq α] (items : List α) (item : α) :
    items.eraseDups.contains item = items.contains item := by
  induction items using eraseDups_induct with
  | nil => rfl
  | cons first rest ih =>
      rw [List.eraseDups_cons, List.contains_cons, List.contains_cons, ih]
      cases equal : item == first with
      | true => rfl
      | false =>
          -- Whatever equals the item differs from the first, so nothing of it was taken away.
          rw [Bool.false_or, Bool.false_or, Bool.eq_iff_iff, List.contains_iff_exists_mem_beq,
            List.contains_iff_exists_mem_beq]
          constructor
          · rintro ⟨other, member, same⟩
            exact ⟨other, (List.mem_filter.1 member).1, same⟩
          · rintro ⟨other, member, same⟩
            refine ⟨other, List.mem_filter.2 ⟨member, ?_⟩, same⟩
            rw [← BEq.congr_left same, equal]
            rfl

theorem distinct_eraseDups [EquivBEq α] (items : List α) : Distinct items.eraseDups := by
  induction items using eraseDups_induct with
  | nil => exact .nil
  | cons first rest ih =>
      rw [List.eraseDups_cons]
      refine List.pairwise_cons.2 ⟨?_, ih⟩
      intro other member
      have isLeft : (rest.filter fun item => !item == first).contains other = true := by
        rw [← contains_eraseDups]
        exact List.elem_eq_true_of_mem member
      obtain ⟨item, itemLeft, same⟩ := List.contains_iff_exists_mem_beq.1 isLeft
      have different := (List.mem_filter.1 itemLeft).2
      rw [← BEq.congr_left same, Bool.not_eq_true'] at different
      rw [BEq.comm]
      exact different

/-- Renaming items one to one commutes with dropping repeated ones. -/
theorem eraseDups_map {β : Type} [BEq β] {rename : α → β}
    (faithful : ∀ left right, (rename left == rename right) = (left == right)) (items : List α) :
    (items.map rename).eraseDups = items.eraseDups.map rename := by
  induction items using eraseDups_induct with
  | nil => rfl
  | cons first rest ih =>
      rw [List.map_cons, List.eraseDups_cons, List.eraseDups_cons, List.map_cons, ← ih,
        List.filter_map]
      have samePredicate : ((fun other => !other == rename first) ∘ rename) =
          fun other => !other == first := by
        funext other
        exact congrArg not (faithful other first)
      rw [samePredicate]

/-- A list without repetition has nothing to drop. -/
theorem Distinct.eraseDups_eq_self [EquivBEq α] {items : List α} (distinct : Distinct items) :
    items.eraseDups = items := by
  induction items with
  | nil => rfl
  | cons first rest ih =>
      rcases List.pairwise_cons.1 distinct with ⟨different, restDistinct⟩
      have kept : (rest.filter fun other => !other == first) = rest := by
        rw [List.filter_eq_self]
        intro other member
        rw [BEq.comm, different other member]
        rfl
      rw [List.eraseDups_cons, kept, ih restDistinct]

/-- Repeated items may be dropped from the front of a list before they are dropped from all of
it. -/
theorem eraseDups_append_eraseDups [LawfulBEq α] (left right : List α) :
    (left.eraseDups ++ right).eraseDups = (left ++ right).eraseDups := by
  have sameRest : right.removeAll left.eraseDups = right.removeAll left := by
    simp [List.removeAll]
  rw [List.eraseDups_append, List.eraseDups_append, sameRest,
    (distinct_eraseDups left).eraseDups_eq_self]

theorem eraseDups_concat [LawfulBEq α] (items : List α) (item : α) :
    (items ++ [item]).eraseDups =
      if items.contains item then items.eraseDups else items.eraseDups ++ [item] := by
  by_cases known : item ∈ items
  · simp [List.eraseDups_append, List.removeAll, known]
  · simp [List.eraseDups_append, List.removeAll, known, List.eraseDups_cons]

/-- Dropping repeated items keeps the others in the order in which they come first. -/
theorem pairwise_idxOf_eraseDups [LawfulBEq α] (items : List α) :
    items.eraseDups.Pairwise fun earlier later => items.idxOf earlier < items.idxOf later := by
  induction items using List.reverseRecOn with
  | nil => exact .nil
  | append_singleton items item ih =>
      have sameIndex : ∀ other ∈ items, (items ++ [item]).idxOf other = items.idxOf other :=
        fun other member => List.idxOf_append_of_mem member
      have stillOrdered : items.eraseDups.Pairwise fun earlier later =>
          (items ++ [item]).idxOf earlier < (items ++ [item]).idxOf later := by
        apply ih.imp_of_mem
        intro earlier later isEarlier isLater before
        rw [sameIndex earlier (List.mem_eraseDups.1 isEarlier),
          sameIndex later (List.mem_eraseDups.1 isLater)]
        exact before
      rw [eraseDups_concat]
      cases known : items.contains item with
      | true => exact stillOrdered
      | false =>
          have isNew : item ∉ items := by simpa using known
          refine List.pairwise_append.2 ⟨stillOrdered, List.pairwise_singleton _ _, ?_⟩
          intro earlier isEarlier later isLast
          have member := List.mem_eraseDups.1 isEarlier
          rw [List.mem_singleton.1 isLast, sameIndex earlier member,
            List.idxOf_append_of_notMem isNew, List.idxOf_cons_self]
          exact List.idxOf_lt_length_of_mem member

/-- The first item under each key is the first of each kind exactly if items with one key are
equal. -/
theorem firstsBy_eq_eraseDups_iff {κ : Type} [BEq κ] [LawfulBEq α] [LawfulBEq κ] {key : α → κ}
    {items : List α} :
    firstsBy key items = items.eraseDups ↔
      ∀ left ∈ items, ∀ right ∈ items, key left = key right → left = right := by
  constructor
  · intro same left isLeft right isRight sameKey
    have distinct : (items.eraseDups.map key).Nodup := by
      rw [← same, map_firstsBy]
      exact (distinct_eraseDups _).nodup
    rw [← List.mem_eraseDups] at isLeft isRight
    exact List.inj_on_of_nodup_map distinct isLeft isRight sameKey
  · intro injective
    induction items using eraseDups_induct with
    | nil => rfl
    | cons first rest ih =>
        have sameFilter : (rest.filter fun other => !key other == key first) =
            rest.filter fun other => !other == first := by
          apply List.filter_congr
          intro other member
          have back := injective other (List.mem_cons_of_mem _ member) first List.mem_cons_self
          by_cases same : other = first
          · simp [same]
          · have differentKey : key other ≠ key first := fun sameKey => same (back sameKey)
            simp [same, differentKey]
        rw [firstsBy_cons, List.eraseDups_cons, sameFilter, ih]
        intro left isLeft right isRight
        exact injective left (List.mem_cons_of_mem _ (List.mem_filter.1 isLeft).1) right
          (List.mem_cons_of_mem _ (List.mem_filter.1 isRight).1)

/-! ## Selections and order -/

/-- What a selection that does not tell equal items apart leaves in a list. -/
theorem contains_filter [EquivBEq α] {keep : α → Bool}
    (respects : ∀ {left right}, (left == right) = true → keep left = keep right) (items : List α)
    (item : α) : (items.filter keep).contains item = (items.contains item && keep item) := by
  rw [Bool.eq_iff_iff, Bool.and_eq_true, List.contains_iff_exists_mem_beq,
    List.contains_iff_exists_mem_beq]
  constructor
  · rintro ⟨other, member, equal⟩
    rw [List.mem_filter] at member
    rw [respects equal]
    exact ⟨⟨other, member.1, equal⟩, member.2⟩
  · rintro ⟨⟨other, member, equal⟩, isKept⟩
    rw [respects equal] at isKept
    exact ⟨other, List.mem_filter.2 ⟨member, isKept⟩, equal⟩

/-- Dropping repeated items does not change which item is the first that is wanted. -/
theorem find?_eraseDups [EquivBEq α] {wanted : α → Bool}
    (respects : ∀ {left right}, (left == right) = true → wanted left = wanted right)
    (items : List α) : items.eraseDups.find? wanted = items.find? wanted := by
  induction items using eraseDups_induct with
  | nil => rfl
  | cons first rest ih =>
      rw [List.eraseDups_cons, List.find?_cons, List.find?_cons]
      cases isWanted : wanted first with
      | true => rfl
      | false =>
          -- What was taken away with the first item is wanted no more than that item.
          have samePredicate :
              (fun other => decide ((!other == first) = true ∧ wanted other = true)) = wanted := by
            funext other
            cases equal : other == first with
            | true => simp [respects equal, isWanted]
            | false => simp
          rw [ih, List.find?_filter, samePredicate]

/-- Behind the first item of a list without repetition comes what the list holds besides it. -/
theorem Distinct.contains_tail [EquivBEq α] {first : α} {rest : List α}
    (distinct : Distinct (first :: rest)) (item : α) :
    rest.contains item = ((first :: rest).contains item && !item == first) := by
  cases equal : item == first with
  | true =>
      have different := (List.pairwise_cons.1 distinct).1
      have absent : rest.contains item = false := by
        rw [List.contains_congr equal, List.contains_eq_any_beq, List.any_eq_false]
        intro other member
        simp [different other member]
      simp [absent]
  | false => simp [equal]

/-- What can be read off some items of a list without repetition, and off no two different items
the same, is a list without repetition. -/
theorem Distinct.nodup_filterMap {β : Type} {read : α → Option β}
    (faithful : ∀ {left right value}, read left = some value → read right = some value →
      (left == right) = true) {items : List α} (distinct : Distinct items) :
    (items.filterMap read).Nodup := by
  apply List.Pairwise.filterMap _ _ distinct
  intro earlier later different earlierValue isEarlier laterValue isLater equal
  rw [equal] at isEarlier
  rw [faithful isEarlier isLater] at different
  cases different

/-- A list without repetition holds an item once, so erasing it there takes away all of it. -/
theorem Distinct.erase_eq_filter [EquivBEq α] {items : List α} (distinct : Distinct items)
    (item : α) : items.erase item = items.filter fun other => !other == item := by
  induction items with
  | nil => rfl
  | cons first rest ih =>
      rw [List.erase_cons, List.filter_cons]
      cases equal : first == item with
      | true =>
          have othersStay : rest.filter (fun other => !other == item) = rest := by
            rw [List.filter_eq_self]
            intro other member
            have different := (List.pairwise_cons.1 distinct).1 other member
            rw [BEq.congr_left equal, BEq.comm] at different
            simp [different]
          simp [othersStay]
      | false => simp [ih distinct.of_cons]

/-- Two lists hold the same items up to their order and to the spelling of equal items. -/
def SameItems (left right : List α) : Prop :=
  ∃ spelled, List.Forall₂ (fun item other => (item == other) = true) left spelled ∧
    spelled.Perm right

/-- Lists without repetition that hold the same items can be matched item by item. -/
theorem sameItems_of_contains [EquivBEq α] {left right : List α} (leftDistinct : Distinct left)
    (rightDistinct : Distinct right) (same : ∀ item, left.contains item = right.contains item) :
    SameItems left right := by
  induction left generalizing right with
  | nil =>
      cases right with
      | nil => exact ⟨[], .nil, .nil⟩
      | cons first rest => simpa using same first
  | cons first rest ih =>
      have firstHeld : right.contains first = true := by simp [← same]
      rcases List.contains_iff_exists_mem_beq.1 firstHeld with ⟨other, member, equal⟩
      rcases List.append_of_mem member with ⟨before, after, rfl⟩
      have moved : (before ++ other :: after).Perm (other :: (before ++ after)) := List.perm_middle
      have movedDistinct : Distinct (other :: (before ++ after)) := by
        apply (moved.pairwise_iff _).1 rightDistinct
        intro left right different
        rw [BEq.comm]
        exact different
      have restSame : ∀ item, rest.contains item = (before ++ after).contains item := by
        intro item
        rw [leftDistinct.contains_tail, movedDistinct.contains_tail, same, BEq.congr_right equal]
        congr 1
        rw [List.contains_eq_any_beq, List.contains_eq_any_beq, moved.any_eq]
      rcases ih leftDistinct.of_cons movedDistinct.of_cons restSame with ⟨spelled, matched, perm⟩
      exact ⟨other :: spelled, .cons equal matched, (perm.cons other).trans moved.symm⟩

/-- Where no other item equals one on the right, the items are the same in another order. -/
theorem SameItems.perm {left right : List α} (sameItems : SameItems left right)
    (rigid : ∀ other ∈ right, ∀ item, (item == other) = true → item = other) :
    left.Perm right := by
  rcases sameItems with ⟨spelled, matched, perm⟩
  have spelledRigid : ∀ other ∈ spelled, ∀ item, (item == other) = true → item = other :=
    fun other member => rigid other (perm.mem_iff.1 member)
  suffices left = spelled by rwa [this]
  clear perm
  induction matched with
  | nil => rfl
  | cons equal _ ih =>
      rw [spelledRigid _ List.mem_cons_self _ equal,
        ih fun other member => spelledRigid other (List.mem_cons_of_mem _ member)]

end ImportAtlas
