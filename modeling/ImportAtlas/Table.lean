/-!
# Tables in insertion order

Every index and graph is a table whose keys come out in the order in which they first went in.
Writing to a known key changes its value and nothing else. No two keys of a table are equal,
which the type records, and the list of entries is the view that all lemmas speak about.
-/

namespace ImportAtlas

/-- Finitely many entries with pairwise different keys. -/
structure Table (κ ν : Type) [BEq κ] where
  entries : List (κ × ν)
  distinct : entries.Pairwise fun earlier later => (earlier.1 == later.1) = false

namespace Table

variable {κ ν : Type} [BEq κ]

@[ext] theorem ext {left right : Table κ ν} (equal : left.entries = right.entries) :
    left = right := by
  cases left; cases right; cases equal; rfl

/-- The table without entries. -/
def empty : Table κ ν := ⟨[], .nil⟩

instance : EmptyCollection (Table κ ν) := ⟨empty⟩
instance : Inhabited (Table κ ν) := ⟨empty⟩

@[simp] theorem entries_empty : (∅ : Table κ ν).entries = [] := rfl

/-- Keys in insertion order. -/
def keys (table : Table κ ν) : List κ := table.entries.map Prod.fst

/-- Values in the order of their keys. -/
def values (table : Table κ ν) : List ν := table.entries.map Prod.snd

def size (table : Table κ ν) : Nat := table.entries.length

/-- Value under a key. -/
def get? (table : Table κ ν) (key : κ) : Option ν :=
  (table.entries.find? fun entry => entry.1 == key).map Prod.snd

def contains (table : Table κ ν) (key : κ) : Bool :=
  table.entries.any fun entry => entry.1 == key

/-- Overwrite the value of a known key in place, or append a new entry. -/
def put (key : κ) (value : ν) : List (κ × ν) → List (κ × ν)
  | [] => [(key, value)]
  | entry :: rest =>
      if entry.1 == key then (entry.1, value) :: rest else entry :: put key value rest

/-- An entry after writing has an old key or the written one. -/
theorem fst_of_mem_put {key : κ} {value : ν} {entries : List (κ × ν)} {entry : κ × ν}
    (member : entry ∈ put key value entries) :
    entry.1 = key ∨ ∃ old ∈ entries, old.1 = entry.1 := by
  induction entries with
  | nil => simp_all [put]
  | cons first rest ih =>
      unfold put at member
      split at member
      · rcases List.mem_cons.1 member with rfl | member
        · exact .inr ⟨first, by simp, rfl⟩
        · exact .inr ⟨entry, by simp [member], rfl⟩
      · rcases List.mem_cons.1 member with rfl | member
        · exact .inr ⟨entry, by simp, rfl⟩
        · rcases ih member with equal | ⟨old, oldMember, equal⟩
          · exact .inl equal
          · exact .inr ⟨old, by simp [oldMember], equal⟩

theorem put_distinct (key : κ) (value : ν) {entries : List (κ × ν)}
    (distinct : entries.Pairwise fun earlier later => (earlier.1 == later.1) = false) :
    (put key value entries).Pairwise fun earlier later => (earlier.1 == later.1) = false := by
  induction entries with
  | nil => simp [put]
  | cons first rest ih =>
      rw [List.pairwise_cons] at distinct
      unfold put
      split
      · exact List.pairwise_cons.2 ⟨distinct.1, distinct.2⟩
      · refine List.pairwise_cons.2 ⟨fun entry member => ?_, ih distinct.2⟩
        rename_i different
        rcases fst_of_mem_put member with equal | ⟨old, oldMember, equal⟩
        · rw [equal]; simpa using different
        · rw [← equal]; exact distinct.1 old oldMember

/-- Write a value. A known key keeps its place and its spelling. -/
def insert (table : Table κ ν) (key : κ) (value : ν) : Table κ ν :=
  ⟨put key value table.entries, put_distinct key value table.distinct⟩

@[simp] theorem entries_insert (table : Table κ ν) (key : κ) (value : ν) :
    (table.insert key value).entries = put key value table.entries := rfl

/-- The table with the images of its values. -/
def mapValues {μ : Type} (image : ν → μ) (table : Table κ ν) : Table κ μ :=
  ⟨table.entries.map fun entry => (entry.1, image entry.2), List.pairwise_map.2 table.distinct⟩

/-- Add an item to the list under a key. -/
def push {α : Type} (table : Table κ (List α)) (key : κ) (item : α) : Table κ (List α) :=
  table.insert key ((table.get? key).getD [] ++ [item])

/-- Write entries one after the other. -/
def insertAll (table : Table κ ν) (entries : List (κ × ν)) : Table κ ν :=
  entries.foldl (fun table entry => table.insert entry.1 entry.2) table

/-- The table that results from writing entries into an empty one. -/
def ofList (entries : List (κ × ν)) : Table κ ν := insertAll ∅ entries

end Table

end ImportAtlas
