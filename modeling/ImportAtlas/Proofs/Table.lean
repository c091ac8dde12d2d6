import ImportAtlas.Proofs.Distinct
import ImportAtlas.Table

/-!
# Look-up in tables

A table is read through its entries. Since no two keys of a table are equal, the entry found
under a key is the only one with that key, and a key may be replaced by an equal one.
-/

namespace ImportAtlas.Table

variable {κ ν : Type} [BEq κ]

instance [DecidableEq κ] [DecidableEq ν] : DecidableEq (Table κ ν) := fun left right =>
  decidable_of_iff (left.entries = right.entries) ⟨ext, congrArg entries⟩

/-- What is found under a key stands in some entry whose key is equal to it. -/
theorem exists_entry_of_get? {table : Table κ ν} {key : κ} {value : ν}
    (found : table.get? key = some value) :
    ∃ entry ∈ table.entries, (entry.1 == key) = true ∧ entry.2 = value := by
  unfold get? at found
  obtain ⟨entry, isFound, equal⟩ := Option.map_eq_some_iff.1 found
  exact ⟨entry, List.mem_of_find?_eq_some isFound, by simpa using List.find?_some isFound, equal⟩

/-- The first entry with a given key is the only one. -/
theorem find?_of_mem [EquivBEq κ] {entries : List (κ × ν)}
    (distinct : entries.Pairwise fun earlier later => (earlier.1 == later.1) = false)
    {entry : κ × ν} (member : entry ∈ entries) {key : κ} (equal : (entry.1 == key) = true) :
    entries.find? (fun other => other.1 == key) = some entry := by
  induction entries with
  | nil => cases member
  | cons first rest ih =>
      rw [List.pairwise_cons] at distinct
      rcases List.mem_cons.1 member with rfl | member
      · simp only [List.find?_cons, equal]
      · have different : (first.1 == key) = false := by
          rw [← BEq.congr_right equal]
          exact distinct.1 entry member
        simp only [List.find?_cons, different]
        exact ih distinct.2 member

/-- No other entry has the key of the first one found. -/
theorem filter_key [EquivBEq κ] {entries : List (κ × ν)}
    (distinct : entries.Pairwise fun earlier later => (earlier.1 == later.1) = false) (key : κ) :
    entries.filter (fun entry => entry.1 == key) =
      (entries.find? fun entry => entry.1 == key).toList := by
  induction entries with
  | nil => rfl
  | cons first rest ih =>
      rw [List.pairwise_cons] at distinct
      cases isKey : first.1 == key with
      | false => simp [isKey, ih distinct.2]
      | true =>
          have others : rest.filter (fun entry => entry.1 == key) = [] := by
            rw [List.filter_eq_nil_iff]
            intro entry member sameKey
            have different := distinct.1 entry member
            rw [BEq.trans isKey (BEq.symm sameKey)] at different
            cases different
          simp [isKey, others]

theorem get?_of_mem [EquivBEq κ] {table : Table κ ν} {entry : κ × ν}
    (member : entry ∈ table.entries) {key : κ} (equal : (entry.1 == key) = true) :
    table.get? key = some entry.2 := by
  unfold get?
  rw [find?_of_mem table.distinct member equal]
  rfl

/-- Equal keys have the same value. -/
theorem get?_congr [EquivBEq κ] (table : Table κ ν) {left right : κ}
    (equal : (left == right) = true) : table.get? left = table.get? right := by
  have samePredicate : (fun entry : κ × ν => entry.1 == left) = fun entry => entry.1 == right := by
    funext entry
    exact BEq.congr_right equal
  unfold get?
  rw [samePredicate]

/-- The keys of a table are those that something is found under, up to equality. -/
theorem contains_keys_iff [EquivBEq κ] {table : Table κ ν} {key : κ} :
    table.keys.contains key = true ↔ ∃ value, table.get? key = some value := by
  constructor
  · intro known
    obtain ⟨other, member, equal⟩ := List.contains_iff_exists_mem_beq.1 known
    obtain ⟨entry, entryMember, rfl⟩ := List.mem_map.1 member
    exact ⟨entry.2, get?_of_mem entryMember (BEq.symm equal)⟩
  · rintro ⟨value, found⟩
    obtain ⟨entry, member, equal, -⟩ := exists_entry_of_get? found
    rw [List.contains_iff_exists_mem_beq]
    exact ⟨entry.1, List.mem_map_of_mem member, BEq.symm equal⟩

/-! ## Writing -/

/-- An entry after writing is an old one, or holds what was written. -/
theorem mem_put [EquivBEq κ] {key : κ} {value : ν} {entries : List (κ × ν)} {entry : κ × ν}
    (member : entry ∈ put key value entries) :
    entry ∈ entries ∨ (entry.1 == key) = true ∧ entry.2 = value := by
  induction entries with
  | nil =>
      obtain rfl : entry = (key, value) := by simpa [put] using member
      exact .inr ⟨BEq.refl key, rfl⟩
  | cons first rest ih =>
      unfold put at member
      split at member
      · rename_i equal
        rcases List.mem_cons.1 member with rfl | member
        · exact .inr ⟨equal, rfl⟩
        · exact .inl (List.mem_cons_of_mem _ member)
      · rcases List.mem_cons.1 member with rfl | member
        · exact .inl List.mem_cons_self
        · exact (ih member).imp_left (List.mem_cons_of_mem _)

theorem find?_put [EquivBEq κ] (key other : κ) (value : ν) (entries : List (κ × ν)) :
    ((put key value entries).find? fun entry => entry.1 == other).map Prod.snd =
      if key == other then some value
      else (entries.find? fun entry => entry.1 == other).map Prod.snd := by
  induction entries with
  | nil => cases equal : key == other <;> simp [put, equal]
  | cons first rest ih =>
      cases known : first.1 == key with
      | true =>
          rw [← BEq.congr_left known]
          cases equal : first.1 == other <;> simp [put, known, equal]
      | false =>
          cases equal : first.1 == other with
          | true =>
              have different : (key == other) = false := by
                rw [BEq.congr_right (BEq.symm equal), BEq.comm]
                exact known
              simp [put, known, equal, different]
          | false => simp [put, known, equal, ih]

/-- Reading what was written, or what was there. -/
theorem get?_insert [EquivBEq κ] (table : Table κ ν) (key other : κ) (value : ν) :
    (table.insert key value).get? other = if key == other then some value else table.get? other :=
  find?_put key other value table.entries

/-- Adding to the list under a key leaves the other lists as they are. -/
theorem get?_push [EquivBEq κ] {α : Type} (table : Table κ (List α)) (key other : κ) (item : α) :
    (table.push key item).get? other =
      if key == other then some ((table.get? other).getD [] ++ [item]) else table.get? other := by
  rw [push, get?_insert]
  cases equal : key == other with
  | true => rw [get?_congr table equal]
  | false => rfl

/-- Of several entries that are written under one key the last counts. -/
theorem get?_insertAll [EquivBEq κ] (table : Table κ ν) (entries : List (κ × ν)) (key : κ) :
    (table.insertAll entries).get? key =
      ((entries.reverse.find? fun entry => entry.1 == key).map Prod.snd).or (table.get? key) := by
  induction entries generalizing table with
  | nil => rfl
  | cons entry rest ih =>
      change ((table.insert entry.1 entry.2).insertAll rest).get? key = _
      rw [ih, get?_insert, List.reverse_cons, List.find?_append, Option.map_or, Option.or_assoc]
      cases equal : entry.1 == key <;> simp [equal]

theorem contains_eq_contains_keys [EquivBEq κ] (table : Table κ ν) (key : κ) :
    table.contains key = table.keys.contains key := by
  simp [contains, keys, List.contains_eq_any_beq, List.any_map, Function.comp_def, BEq.comm]

/-- A new key goes to the end. -/
theorem put_of_new {table : Table κ ν} {key : κ} (new : table.contains key = false) (value : ν) :
    put key value table.entries = table.entries ++ [(key, value)] := by
  have written : ∀ entries : List (κ × ν), (∀ entry ∈ entries, (entry.1 == key) = false) →
      put key value entries = entries ++ [(key, value)] := by
    intro entries different
    induction entries with
    | nil => rfl
    | cons first rest ih => simp_all [put]
  exact written table.entries (by simpa [contains] using new)

theorem keys_insert_of_new {table : Table κ ν} {key : κ} (new : table.contains key = false)
    (value : ν) : (table.insert key value).keys = table.keys ++ [key] := by
  rw [keys, entries_insert, put_of_new new]
  simp [keys]

/-- A known key keeps its place. -/
theorem keys_insert_of_known {table : Table κ ν} {key : κ} (known : table.contains key = true)
    (value : ν) : (table.insert key value).keys = table.keys := by
  have kept : ∀ entries : List (κ × ν), (entries.any fun entry => entry.1 == key) = true →
      (put key value entries).map Prod.fst = entries.map Prod.fst := by
    intro entries
    induction entries with
    | nil => simp
    | cons first rest ih =>
        intro isKnown
        cases equal : first.1 == key with
        | true => simp [put, equal]
        | false =>
            have inRest : (rest.any fun entry => entry.1 == key) = true := by
              simpa [equal] using isKnown
            simp [put, equal, ih inRest]
  exact kept table.entries known

/-- Which keys a table has after writing does not depend on its values. -/
theorem keys_insert_congr {ν' : Type} [EquivBEq κ] {left : Table κ ν} {right : Table κ ν'}
    (same : left.keys = right.keys) (key : κ) (value : ν) (value' : ν') :
    (left.insert key value).keys = (right.insert key value').keys := by
  have alike : left.contains key = right.contains key := by
    rw [contains_eq_contains_keys, contains_eq_contains_keys, same]
  cases known : right.contains key with
  | true =>
      rw [keys_insert_of_known (alike.trans known), keys_insert_of_known known, same]
  | false => rw [keys_insert_of_new (alike.trans known), keys_insert_of_new known, same]

/-- Writing what is there changes nothing. -/
theorem insert_eq_self [LawfulBEq κ] {table : Table κ ν} {key : κ} {value : ν}
    (found : table.get? key = some value) : table.insert key value = table := by
  have kept : ∀ entries : List (κ × ν),
      (entries.find? fun entry => entry.1 == key).map Prod.snd = some value →
        put key value entries = entries := by
    intro entries
    induction entries with
    | nil => simp
    | cons first rest ih =>
        intro isFound
        cases equal : first.1 == key with
        | true =>
            have same : first.2 = value := by simpa [equal] using isFound
            simp [put, equal, ← same]
        | false =>
            have inRest : (rest.find? fun entry => entry.1 == key).map Prod.snd = some value := by
              simpa [equal] using isFound
            simp [put, equal, ih inRest]
  exact ext (kept table.entries found)

theorem contains_insert [EquivBEq κ] (table : Table κ ν) (key other : κ) (value : ν) :
    (table.insert key value).contains other = (key == other || table.contains other) := by
  rw [Bool.eq_iff_iff, Bool.or_eq_true, contains_eq_contains_keys, contains_eq_contains_keys,
    contains_keys_iff, contains_keys_iff, get?_insert]
  cases equal : key == other <;> simp

theorem ofList_concat (entries : List (κ × ν)) (entry : κ × ν) :
    ofList (entries ++ [entry]) = (ofList entries).insert entry.1 entry.2 := by
  simp [ofList, insertAll]

/-- Entries under different keys are all kept, in their order. -/
theorem entries_ofList_of_nodup [LawfulBEq κ] {entries : List (κ × ν)}
    (nodup : (entries.map Prod.fst).Nodup) : (ofList entries).entries = entries := by
  induction entries using List.reverseRecOn with
  | nil => rfl
  | append_singleton earlier entry ih =>
      rw [List.map_append, List.map_singleton, ← List.concat_eq_append, List.nodup_concat] at nodup
      have kept := ih nodup.2
      have new : (ofList earlier).contains entry.1 = false := by
        rw [contains_eq_contains_keys, Table.keys, kept]
        simpa using nodup.1
      rw [ofList_concat, entries_insert, put_of_new new, kept]

/-- A table from which the values can be told by the keys has each key once, in the order in which
they come first. -/
theorem entries_ofList_map [LawfulBEq κ] (value : κ → ν) (keys : List κ) :
    (ofList (keys.map fun key => (key, value key))).entries =
      keys.eraseDups.map fun key => (key, value key) := by
  induction keys using List.reverseRecOn with
  | nil => rfl
  | append_singleton earlier key ih =>
      have keysBefore : (ofList (earlier.map fun key => (key, value key))).contains key =
          earlier.contains key := by
        rw [contains_eq_contains_keys, Table.keys, ih, ← contains_eraseDups]
        simp [Function.comp_def]
      rw [List.map_append, List.map_singleton, ofList_concat, eraseDups_concat]
      cases known : earlier.contains key with
      | true =>
          have isEntry : (key, value key) ∈
              (ofList (earlier.map fun key => (key, value key))).entries := by
            rw [ih]
            exact List.mem_map_of_mem (List.mem_eraseDups.2 (List.contains_iff_mem.1 known))
          rw [insert_eq_self (get?_of_mem isEntry (BEq.refl key)), ih, if_pos rfl]
      | false =>
          rw [entries_insert, put_of_new (keysBefore.trans known), ih]
          simp

/-- What is only written under new keys follows what was there, the first item for each key. -/
theorem entries_foldl_insert_new [LawfulBEq κ] {ι : Type} (key : ι → κ) (value : ι → ν)
    (items : List ι) (table : Table κ ν) :
    (items.foldl (fun table item =>
        if table.contains (key item) then table else table.insert (key item) (value item))
      table).entries =
    table.entries ++ (firstsBy key (items.filter fun item => !table.contains (key item))).map
      fun item => (key item, value item) := by
  induction items generalizing table with
  | nil => simp
  | cons item items ih =>
      rw [List.foldl_cons, ih]
      cases known : table.contains (key item) with
      | true => simp [known]
      | false =>
          have stillNew :
              (fun other => !(table.insert (key item) (value item)).contains (key other)) =
              fun other => (!key other == key item) && !table.contains (key other) := by
            funext other
            rw [contains_insert, Bool.not_or, BEq.comm]
          simp [known, put_of_new known, firstsBy_cons, List.filter_filter, stillNew]

/-- Writing under a key that a selection leaves out does not show in the selection. -/
theorem filter_put_of_not {keep : κ → Bool}
    (respects : ∀ {left right}, (left == right) = true → keep left = keep right) {key : κ}
    (dropped : keep key = false) (value : ν) (entries : List (κ × ν)) :
    (put key value entries).filter (fun entry => keep entry.1) =
      entries.filter fun entry => keep entry.1 := by
  induction entries with
  | nil => simp [put, dropped]
  | cons first rest ih =>
      unfold put
      split
      · rename_i equal
        rw [← respects equal] at dropped
        simp [dropped]
      · simp [List.filter_cons, ih]

/-- Writing under a key that a selection keeps is writing to the selection. -/
theorem filter_put_of_keep {keep : κ → Bool}
    (respects : ∀ {left right}, (left == right) = true → keep left = keep right) {key : κ}
    (kept : keep key = true) (value : ν) (entries : List (κ × ν)) :
    (put key value entries).filter (fun entry => keep entry.1) =
      put key value (entries.filter fun entry => keep entry.1) := by
  induction entries with
  | nil => simp [put, kept]
  | cons first rest ih =>
      by_cases equal : (first.1 == key) = true
      · have firstKept : keep first.1 = true := (respects equal).trans kept
        simp [put, equal, firstKept]
      · cases firstKept : keep first.1 with
        | true => simp [put, equal, firstKept, ih]
        | false => simp [put, equal, firstKept, ih]

/-- Renaming keys one to one and values in any way commutes with writing. -/
theorem map_put {κ' ν' : Type} [BEq κ'] {rename : κ → κ'}
    (faithful : ∀ left right, (rename left == rename right) = (left == right)) (image : ν → ν')
    (key : κ) (value : ν) (entries : List (κ × ν)) :
    (put key value entries).map (fun entry => (rename entry.1, image entry.2)) =
      put (rename key) (image value)
        (entries.map fun entry => (rename entry.1, image entry.2)) := by
  induction entries with
  | nil => rfl
  | cons first rest ih =>
      cases equal : first.1 == key with
      | true => simp [put, faithful, equal]
      | false => simp [put, faithful, equal, ih]

theorem mapValues_insert {ν' : Type} (image : ν → ν') (table : Table κ ν) (key : κ) (value : ν) :
    (table.insert key value).mapValues image =
      (table.mapValues image).insert key (image value) := by
  have faithful : ∀ left right : κ, (id left == id right) = (left == right) := fun _ _ => rfl
  exact ext (map_put faithful image key value table.entries)

/-- Images of values can be taken before writing. -/
theorem mapValues_ofList {ν' : Type} (image : ν → ν') (entries : List (κ × ν)) :
    (ofList entries).mapValues image =
      ofList (entries.map fun entry => (entry.1, image entry.2)) := by
  induction entries using List.reverseRecOn with
  | nil => rfl
  | append_singleton earlier entry ih =>
      rw [ofList_concat, mapValues_insert, ih, List.map_append, List.map_singleton, ofList_concat]

end ImportAtlas.Table
