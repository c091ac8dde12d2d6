import ImportAtlas.Proofs.Catalog.Index

/-!
# The indexes of a catalog as views

The five indexes of a catalog are filled side by side, each with a rule of its own for what comes
twice: an identifier is skipped, a name and a directory collect, a path takes the latest. All five
say no more than the list of kept records: each look-up is a selection from that list. So a record
that is not kept leaves no trace in any of them.
-/

namespace ImportAtlas

/-- What stands under a key that collects items: nothing at all rather than an empty list. -/
def filed {α : Type} (items : List α) : Option (List α) :=
  if items.isEmpty then none else some items

theorem getD_filed {α : Type} (items : List α) : (filed items).getD [] = items := by
  cases items <;> rfl

theorem isSome_filed_iff {α : Type} {items : List α} :
    (filed items).isSome = true ↔ items ≠ [] := by
  cases items <;> simp [filed]

/-- Under every key a table that collects items holds those with this key, also after one more. -/
theorem Table.get?_push_filed {κ α : Type} [BEq κ] [EquivBEq κ] {table : Table κ (List α)}
    (keyOf : α → κ) {items : List α} {key : κ}
    (stands : table.get? key = filed (items.filter fun other => keyOf other == key)) (item : α) :
    (table.push (keyOf item) item).get? key =
      filed ((items ++ [item]).filter fun other => keyOf other == key) := by
  rw [get?_push, stands, getD_filed, List.filter_append, List.filter_singleton]
  cases keyOf item == key with
  | true => simp [filed]
  | false => simp

theorem Atom.beq_text_eq (atom : Atom) (text : Text) :
    (atom == .text text) = decide ((Json.atom atom).text? = some text) := by
  rw [Bool.eq_iff_iff, decide_eq_true_eq]
  constructor
  · intro equal
    rw [eq_of_beq_text equal]
    rfl
  · intro isText
    cases atom with
    | text value =>
        cases isText
        exact BEq.refl _
    | null | bool | num => cases isText

namespace Catalog

/-! ## Entering listings -/

/-- Every index of a catalog is a view of the listings that were entered. -/
structure Indexed (listings : List Listing) (catalog : Catalog) : Prop where
  byId : catalog.byId.entries = listings.map fun listing => (listing.id, listing)
  byName : ∀ name, catalog.byName.get? name =
    filed (listings.filter fun listing => listing.name == name)
  byPath : ∀ path, catalog.byPath.get? path =
    (listings.filter fun listing => listing.path == path).getLast?
  byDirectory : ∀ directory, catalog.byDirectory.get? directory =
    filed (listings.filter fun listing => listing.directory == directory)
  byImport : ∀ pattern, catalog.under pattern =
    (listings.filter fun listing => listing.patterns.contains pattern).map Listing.id

namespace Indexed

variable {listings : List Listing} {catalog : Catalog} {listing : Listing}

theorem empty : Indexed [] {} where
  byId := rfl
  byName _ := rfl
  byPath _ := rfl
  byDirectory _ := rfl
  byImport _ := rfl

theorem ids_eq (indexed : Indexed listings catalog) : catalog.ids = listings.map Listing.id := by
  simp [ids, Table.keys, indexed.byId]

/-- Entering a listing with a new identifier adds it to the end of what is viewed. -/
theorem enter (indexed : Indexed listings catalog) (new : listing.id ∉ listings.map Listing.id)
    (distinct : Distinct listing.patterns) :
    Indexed (listings ++ [listing]) (catalog.enter listing) where
  byId := by
    have unknown : catalog.byId.contains listing.id = false := by
      rw [Table.contains_eq_contains_keys]
      change catalog.ids.contains listing.id = false
      rw [indexed.ids_eq]
      simpa using new
    change Table.put listing.id listing catalog.byId.entries = _
    rw [Table.put_of_new unknown, indexed.byId, List.map_append]
    rfl
  byName name := Table.get?_push_filed Listing.name (indexed.byName name) listing
  byPath path := by
    change (catalog.byPath.insert listing.path listing).get? path = _
    rw [Table.get?_insert, indexed.byPath, List.filter_append, List.filter_singleton]
    cases listing.path == path <;> simp
  byDirectory directory :=
    Table.get?_push_filed Listing.directory (indexed.byDirectory directory) listing
  byImport pattern := by
    rw [under_enter distinct, indexed.byImport, List.filter_append, List.filter_singleton]
    cases listing.patterns.contains pattern <;> simp

/-- Listings with pairwise different identifiers are all viewed, in their order. -/
theorem ofListings (idsDistinct : (listings.map Listing.id).Nodup)
    (distinct : ∀ listing ∈ listings, Distinct listing.patterns) :
    Indexed listings (ofListings listings) := by
  induction listings using List.reverseRecOn with
  | nil => exact empty
  | append_singleton earlier listing ih =>
      rw [List.map_append, List.map_singleton, ← List.concat_eq_append, List.nodup_concat]
        at idsDistinct
      have earlierIndexed := ih idsDistinct.2 fun other member =>
        distinct other (List.mem_append_left _ member)
      rw [Catalog.ofListings, List.foldl_concat]
      exact earlierIndexed.enter idsDistinct.1 (distinct listing (by simp))

end Indexed

/-! ## The kept records -/

variable {components : List Component} {catalog : Catalog}

/-- Of each identifier the first record, in the order in which the identifiers first occur. -/
structure FirstOfEach (components records : List Component) : Prop where
  ids : records.map Component.id = (components.map Component.id).eraseDups
  first : ∀ record ∈ records, components.find? (fun other => other.id = record.id) = some record

theorem find?_of_mem_newRecords {known : List Text} {record : Component}
    (isNew : record ∈ newRecords known components) :
    components.find? (fun other => other.id = record.id) = some record := by
  have unknown : ∀ {known : List Text} {components : List Component},
      record ∈ newRecords known components → record.id ∉ known := by
    intro known components isNew
    have isId := List.mem_map_of_mem (f := Component.id) isNew
    rw [map_id_newRecords, List.mem_eraseDups, List.mem_filter] at isId
    simpa using isId.2
  induction components generalizing known with
  | nil => simp [newRecords] at isNew
  | cons component rest ih =>
      by_cases old : component.id ∈ known
      · rw [newRecords_cons_of_mem old] at isNew
        have different : component.id ≠ record.id := fun same => unknown isNew (same ▸ old)
        simp [different, ih isNew]
      · rw [newRecords_cons_of_notMem old] at isNew
        cases List.mem_cons.1 isNew with
        | inl isFirst => simp [isFirst]
        | inr later =>
            have different : component.id ≠ record.id := by
              intro same
              exact unknown later (by simp [same])
            simp [different, ih later]

theorem firstOfEach_kept (components : List Component) :
    FirstOfEach components (kept components) where
  ids := map_id_kept components
  first _ isKept := find?_of_mem_newRecords isKept

/-- A catalog is a view of the listings of the kept records. -/
theorem exists_indexed (built : ofComponents components = .ok catalog) :
    ∃ listings, Indexed listings catalog ∧ listings.map Listing.component = kept components ∧
      ∀ listing ∈ listings, Lists listing.component listing := by
  rcases exists_listings built with ⟨listings, listed, distinct, rfl⟩
  have lists : ∀ listing ∈ listings, Lists listing.component listing := by
    intro listing member
    rcases (mem_iff_of_mapM_eq_ok listed).1 member with ⟨record, -, isListing⟩
    have lists := lists_of_ofComponent isListing
    rw [lists.whole]
    exact lists
  have whole : listings.map Listing.component = (kept components).map fun record => record :=
    map_of_mapM_eq_ok listed fun _ _ isListing => (lists_of_ofComponent isListing).whole.symm
  rw [List.map_id'] at whole
  have sameIds : listings.map Listing.id = (kept components).map Component.id :=
    map_of_mapM_eq_ok listed fun _ _ isListing => (lists_of_ofComponent isListing).id.symm
  refine ⟨listings, .ofListings ?_ distinct, whole, lists⟩
  rw [sameIds]
  exact nodup_ids_kept components

/-- What is found under an identifier lists a record of that identifier. -/
theorem exists_lists_of_get? (built : ofComponents components = .ok catalog) {id : Text}
    {listing : Listing} (found : catalog.get? id = some listing) :
    ∃ component ∈ components, component.id = id ∧ Lists component listing := by
  rcases exists_indexed built with ⟨listings, indexed, whole, lists⟩
  rcases Table.exists_entry_of_get? found with ⟨entry, isEntry, isId, rfl⟩
  rw [indexed.byId] at isEntry
  rcases List.mem_map.1 isEntry with ⟨listing, isMember, rfl⟩
  have isKept : listing.component ∈ kept components := by
    rw [← whole]
    exact List.mem_map_of_mem isMember
  refine ⟨listing.component, newRecords_subset [] components isKept, ?_, lists listing isMember⟩
  rw [← (lists listing isMember).id]
  exact eq_of_beq isId

/-! ## Look-up in the kept records -/

/-- Every look-up in a catalog is a selection from a list of records. -/
structure Views (records : List Component) (catalog : Catalog) : Prop where
  all : catalog.listings.map Listing.component = records
  ids : catalog.ids = records.map Component.id
  count : catalog.size = records.length
  byId : ∀ id, (catalog.get? id).map Listing.component =
    records.find? fun record => record.id = id
  /-- All records of a name, in their order. -/
  byName : ∀ name : Text, (catalog.named (.text name)).map Listing.component =
    records.filter fun record => record.name.text? = some name
  byDirectory : ∀ directory : Text, (catalog.inDirectory (.text directory)).map Listing.component =
    records.filter fun record => record.directory.text? = some directory
  /-- Of several records of a path the last. -/
  byPath : ∀ path : Text, (catalog.atPath? path).map Listing.component =
    (records.filter fun record => record.path.text? = some path).getLast?
  hasName : ∀ name, catalog.containsName name = true ↔ catalog.named name ≠ []
  byImport : ∀ pattern, catalog.under pattern =
    (records.filter fun record => record.hasPattern pattern).map Component.id

/-- Selecting listings is selecting their records. -/
theorem map_component_filter {listings : List Listing}
    (lists : ∀ listing ∈ listings, Lists listing.component listing)
    {keepListing : Listing → Bool} {keepRecord : Component → Bool}
    (agree : ∀ listing, Lists listing.component listing →
      keepListing listing = keepRecord listing.component) :
    (listings.filter keepListing).map Listing.component =
      (listings.map Listing.component).filter keepRecord := by
  rw [List.filter_map]
  congr 1
  exact List.filter_congr fun listing member => agree listing (lists listing member)

/-- A catalog that is a view of listings is a view of their records. -/
theorem Indexed.views {listings : List Listing} (indexed : Indexed listings catalog)
    (lists : ∀ listing ∈ listings, Lists listing.component listing) :
    Views (listings.map Listing.component) catalog where
  all := by
    rw [Catalog.listings, Table.values, indexed.byId]
    simp
  ids := by
    rw [indexed.ids_eq, List.map_map]
    exact List.map_congr_left fun listing member => (lists listing member).id
  count := by
    rw [size, Table.size, indexed.byId]
    simp
  byId id := by
    have selected : (listings.filter fun listing => listing.id == id).map Listing.component =
        (listings.map Listing.component).filter fun record => record.id = id := by
      apply map_component_filter lists
      intro listing isListing
      rw [isListing.id, beq_eq_decide]
    have found : catalog.get? id = listings.find? fun listing => listing.id == id := by
      rw [get?, Table.get?, indexed.byId, List.find?_map]
      simp [Function.comp_def]
    rw [found, ← List.head?_filter, ← List.head?_map, selected, List.head?_filter]
  byName name := by
    rw [named, indexed.byName, getD_filed]
    apply map_component_filter lists
    intro listing isListing
    rw [isListing.name, Atom.beq_text_eq]
  byDirectory directory := by
    rw [inDirectory, indexed.byDirectory, getD_filed]
    apply map_component_filter lists
    intro listing isListing
    rw [isListing.directory, Atom.beq_text_eq]
  byPath path := by
    rw [atPath?, indexed.byPath, ← List.getLast?_map]
    congr 1
    apply map_component_filter lists
    intro listing isListing
    rw [isListing.path]
    simp [Json.text?, beq_eq_decide]
  hasName name := by
    rw [containsName, Table.contains_eq_contains_keys, Table.contains_keys_iff,
      ← Option.isSome_iff_exists, named, indexed.byName, getD_filed, isSome_filed_iff]
  byImport pattern := by
    have selected : (listings.filter fun listing => listing.patterns.contains pattern).map
        Listing.component = (listings.map Listing.component).filter
          fun record => record.hasPattern pattern := by
      apply map_component_filter lists
      intro listing isListing
      exact (Component.hasPattern_eq isListing.patterns pattern).symm
    rw [indexed.byImport, ← selected, List.map_map]
    apply List.map_congr_left
    intro listing member
    exact (lists listing (List.mem_filter.1 member).1).id

theorem views_ofComponents (built : ofComponents components = .ok catalog) :
    Views (kept components) catalog := by
  rcases exists_indexed built with ⟨listings, indexed, whole, lists⟩
  rw [← whole]
  exact indexed.views lists

/-- A record whose identifier is known is passed over, whatever else it holds. -/
theorem ofComponents_concat_known (built : ofComponents components = .ok catalog)
    {record : Component} (known : record.id ∈ components.map Component.id) :
    ofComponents (components ++ [record]) = .ok catalog := by
  have isKnown : catalog.byId.contains record.id = true := by
    rw [Table.contains_eq_contains_keys, List.contains_iff_mem]
    change record.id ∈ catalog.ids
    rw [ids_ofComponents built, List.mem_eraseDups]
    exact known
  have appended : ofComponents (components ++ [record]) =
      ofComponents components >>= fun catalog => catalog.add record := by
    simp [ofComponents]
  rw [appended, built]
  change catalog.add record = _
  rw [add, if_pos isKnown]

/-- Records with texts have a catalog, all of whose indexes are views of one list: the first record
of each identifier. A further record of a known identifier changes none of them. -/
theorem indexes_view_kept (textual : ∀ component ∈ components, component.Textual) :
    FirstOfEach components (kept components) ∧
    ∃ catalog, ofComponents components = .ok catalog ∧ Views (kept components) catalog ∧
      ∀ record : Component, record.id ∈ components.map Component.id →
        ofComponents (components ++ [record]) = .ok catalog := by
  rcases exists_ofComponents textual with ⟨catalog, built⟩
  refine ⟨firstOfEach_kept components, catalog, built, views_ofComponents built, ?_⟩
  intro record known
  exact ofComponents_concat_known built known

/-- Two components in one file, a file of the same name elsewhere, and a second record of the first
component that names another folder. -/
def gallery : List Component :=
  [{ name := .text "Card", path := .text "src/ui.tsx", directory := .text "src" },
   { name := .text "List", path := .text "src/ui.tsx", directory := .text "src" },
   { name := .text "Card", path := .text "src/ui.tsx", directory := .text "lib" },
   { name := .text "Card", path := .text "lib/Card.tsx", directory := .text "lib" }]

/-- The path is that of two kept records, of which the later is found, and the folder of the second
record counts for nothing. -/
theorem gallery_views_kept :
    (∀ component ∈ gallery, component.Textual) ∧
    ∃ catalog, ofComponents gallery = .ok catalog ∧ catalog.size = 3 ∧
      (catalog.atPath? "src/ui.tsx").map Listing.component = some gallery[1] ∧
      (catalog.named (.text "Card")).map Listing.component = [gallery[0], gallery[3]] ∧
      (catalog.inDirectory (.text "lib")).map Listing.component = [gallery[3]] ∧
      ofComponents (gallery ++ [gallery[2]]) = .ok catalog := by
  have textual : ∀ component ∈ gallery, component.Textual := by decide
  rcases indexes_view_kept textual with ⟨-, catalog, built, views, unchanged⟩
  have isKept : kept gallery = [gallery[0], gallery[1], gallery[3]] := by rfl
  refine ⟨textual, catalog, built, ?_, ?_, ?_, ?_, unchanged gallery[2] (by decide)⟩
  · rw [views.count, isKept]
    rfl
  · rw [views.byPath, isKept]
    rfl
  · rw [views.byName, isKept]
    rfl
  · rw [views.byDirectory, isKept]
    rfl

end Catalog

end ImportAtlas
