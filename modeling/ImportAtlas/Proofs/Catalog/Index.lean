import ImportAtlas.Catalog
import ImportAtlas.Proofs.Catalog.Pattern
import ImportAtlas.Proofs.Table

/-!
# The import index of a catalog

A catalog keeps the first record of each identifier and enters the records that it keeps one after
the other. So the import index is the inverse of the patterns: under a pattern it holds, in their
order, the identifiers of the kept records that have this pattern.
-/

namespace ImportAtlas.Catalog

open Text

/-! ## The records that are kept -/

/-- The records whose identifiers are not known, the first of each identifier. -/
def newRecords (known : List Text) : List Component → List Component
  | [] => []
  | component :: rest =>
      if known.contains component.id then newRecords known rest
      else component :: newRecords (known ++ [component.id]) rest

/-- The first record of each identifier. -/
def kept (components : List Component) : List Component := newRecords [] components

section NewRecords

variable {known : List Text} {component : Component} {components : List Component}

@[simp] theorem newRecords_cons_of_mem (old : component.id ∈ known) :
    newRecords known (component :: components) = newRecords known components := by
  simp [newRecords, old]

@[simp] theorem newRecords_cons_of_notMem (new : component.id ∉ known) :
    newRecords known (component :: components) =
      component :: newRecords (known ++ [component.id]) components := by
  simp [newRecords, new]

theorem newRecords_subset (known : List Text) (components : List Component) :
    newRecords known components ⊆ components := by
  induction components generalizing known with
  | nil => simp [newRecords]
  | cons component rest ih =>
      by_cases old : component.id ∈ known
      · rw [newRecords_cons_of_mem old]
        exact List.subset_cons_of_subset component (ih known)
      · rw [newRecords_cons_of_notMem old]
        exact List.cons_subset_cons component (ih _)

/-- Some record is taken up for each identifier that is not known. -/
theorem exists_newRecord (member : component ∈ components) (new : component.id ∉ known) :
    ∃ record ∈ newRecords known components, record.id = component.id := by
  induction components generalizing known with
  | nil => simp at member
  | cons first rest ih =>
      by_cases same : first.id = component.id
      · have firstNew : first.id ∉ known := by simpa [same] using new
        rw [newRecords_cons_of_notMem firstNew]
        exact ⟨first, List.mem_cons_self, same⟩
      · have later : component ∈ rest := by
          cases List.mem_cons.1 member with
          | inl isFirst => exact absurd (congrArg Component.id isFirst.symm) same
          | inr later => exact later
        by_cases old : first.id ∈ known
        · rw [newRecords_cons_of_mem old]
          exact ih later new
        · rw [newRecords_cons_of_notMem old]
          have stillNew : component.id ∉ known ++ [first.id] := by
            simp [new, Ne.symm same]
          rcases ih later stillNew with ⟨record, isNew, equal⟩
          exact ⟨record, List.mem_cons_of_mem first isNew, equal⟩

theorem exists_kept (member : component ∈ components) :
    ∃ record ∈ kept components, record ∈ components ∧ record.id = component.id := by
  rcases exists_newRecord member (List.not_mem_nil (a := component.id)) with ⟨record, isKept, equal⟩
  exact ⟨record, isKept, newRecords_subset [] components isKept, equal⟩

/-- The identifiers of the records that are taken up are the unknown ones, each once. -/
theorem map_id_newRecords (known : List Text) (components : List Component) :
    (newRecords known components).map Component.id =
      ((components.map Component.id).filter fun id => !known.contains id).eraseDups := by
  induction components generalizing known with
  | nil => rfl
  | cons component rest ih =>
      by_cases old : component.id ∈ known
      · simp [old, ih]
      · have samePredicate : (fun id => !(known ++ [component.id]).contains id) =
            fun id => (!id == component.id) && !known.contains id := by
          funext id
          rw [Bool.eq_iff_iff]
          simp [and_comm]
        rw [newRecords_cons_of_notMem old, List.map_cons, ih, List.map_cons, List.filter_cons,
          if_pos (by simpa using old), List.eraseDups_cons, List.filter_filter, samePredicate]

theorem map_id_kept (components : List Component) :
    (kept components).map Component.id = (components.map Component.id).eraseDups := by
  simp [kept, map_id_newRecords]

theorem nodup_ids_kept (components : List Component) :
    ((kept components).map Component.id).Nodup := by
  rw [map_id_kept]
  exact (distinct_eraseDups _).nodup

theorem newRecords_eq_self (fresh : (known ++ components.map Component.id).Nodup) :
    newRecords known components = components := by
  induction components generalizing known with
  | nil => rfl
  | cons component rest ih =>
      have split : (known ++ [component.id] ++ rest.map Component.id).Nodup := by
        simpa using fresh
      have new : component.id ∉ known := by
        have apart := (List.nodup_append.1 fresh).2.2
        intro old
        exact apart component.id old component.id List.mem_cons_self rfl
      rw [newRecords_cons_of_notMem new, ih split]

/-- Where no two records share an identifier, all are kept. -/
theorem kept_eq_self (distinct : (components.map Component.id).Nodup) :
    kept components = components :=
  newRecords_eq_self distinct

end NewRecords

/-! ## Entering listings -/

/-- The catalog of listings that are entered one after the other. -/
def ofListings (listings : List Listing) : Catalog := listings.foldl enter {}

/-- What a listing takes over from a component. -/
structure Lists (component : Component) (listing : Listing) : Prop where
  whole : listing.component = component
  id : listing.id = component.id
  name : component.name = .atom listing.name
  path : component.path = .text listing.path
  directory : component.directory = .atom listing.directory
  patterns : component.importPatterns = .ok listing.patterns

theorem atom_of_nameOf {value : Json} {name : Atom} (named : Listing.nameOf value = .ok name) :
    value = .atom name := by
  cases value with
  | atom value =>
      cases named
      rfl
  | arr | obj => cases named

theorem lists_of_ofComponent {component : Component} {listing : Listing}
    (listed : Listing.ofComponent component = .ok listing) : Lists component listing := by
  rcases bind_eq_ok_iff.1 listed with ⟨name, isName, listed⟩
  rcases bind_eq_ok_iff.1 listed with ⟨path, isPath, listed⟩
  rcases bind_eq_ok_iff.1 listed with ⟨directory, isDirectory, listed⟩
  rcases bind_eq_ok_iff.1 listed with ⟨patterns, isPatterns, listed⟩
  cases path with
  | text path =>
      cases listed
      exact ⟨rfl, rfl, atom_of_nameOf isName, atom_of_nameOf isPath, atom_of_nameOf isDirectory,
        isPatterns⟩
  | null | bool | num => cases listed

theorem ids_enter {catalog : Catalog} {listing : Listing}
    (new : catalog.byId.contains listing.id = false) :
    (catalog.enter listing).ids = catalog.ids ++ [listing.id] :=
  Table.keys_insert_of_new new listing

/-- Listings with new identifiers are entered in their order. -/
theorem ids_foldl_enter {listings : List Listing} {catalog : Catalog}
    (fresh : (catalog.ids ++ listings.map Listing.id).Nodup) :
    (listings.foldl enter catalog).ids = catalog.ids ++ listings.map Listing.id := by
  induction listings generalizing catalog with
  | nil => simp
  | cons listing rest ih =>
      have split : (catalog.ids ++ listing.id :: rest.map Listing.id).Nodup := by
        simpa using fresh
      have new : catalog.byId.contains listing.id = false := by
        rw [Table.contains_eq_contains_keys]
        simpa [ids] using (List.nodup_append.1 split).2.2 listing.id
      rw [List.foldl_cons, ih, ids_enter new]
      · simp
      · rw [ids_enter new]
        simpa using split

/-- Taking up records is entering the listings of those that are new. -/
theorem foldlM_add (components : List Component) (catalog : Catalog) :
    components.foldlM add catalog =
      ((newRecords catalog.ids components).mapM Listing.ofComponent).map
        fun listings => listings.foldl enter catalog := by
  induction components generalizing catalog with
  | nil => rfl
  | cons component rest ih =>
      have isKnown : catalog.byId.contains component.id = catalog.ids.contains component.id :=
        catalog.byId.contains_eq_contains_keys component.id
      rw [List.foldlM_cons, add, isKnown]
      by_cases old : component.id ∈ catalog.ids
      · rw [if_pos (by simpa using old), newRecords_cons_of_mem old]
        exact ih catalog
      · rw [if_neg (by simpa using old), newRecords_cons_of_notMem old, List.mapM_cons]
        cases listed : Listing.ofComponent component with
        | error fault => rfl
        | ok listing =>
            have lists := lists_of_ofComponent listed
            have new : catalog.byId.contains listing.id = false := by
              rw [lists.id, isKnown]
              simpa using old
            change rest.foldlM add (catalog.enter listing) = _
            rw [ih, ids_enter new, lists.id]
            cases (newRecords (catalog.ids ++ [component.id]) rest).mapM Listing.ofComponent <;> rfl

/-- The catalog of some records holds the listings of those that are kept. -/
theorem ofComponents_eq (components : List Component) :
    ofComponents components = ((kept components).mapM Listing.ofComponent).map ofListings :=
  foldlM_add components {}

/-! ## The index -/

/-- The identifiers that the import index holds under a pattern. -/
def under (catalog : Catalog) (pattern : Atom) : List Text :=
  (catalog.byImport.get? pattern).getD []

/-- An identifier that is pushed under patterns without repetition is added to the end of each. -/
theorem get?_pushAll {patterns : List Atom} (distinct : Distinct patterns) (id : Text)
    (index : Table Atom (List Text)) (pattern : Atom) :
    (patterns.foldl (fun index pattern => index.push pattern id) index).get? pattern =
      if patterns.contains pattern then some ((index.get? pattern).getD [] ++ [id])
      else index.get? pattern := by
  induction patterns generalizing index with
  | nil => simp
  | cons first rest ih =>
      rw [List.foldl_cons, ih distinct.of_cons, Table.get?_push, BEq.comm,
        distinct.contains_tail, List.contains_cons]
      cases pattern == first <;> simp

theorem get?_enter {listing : Listing} (distinct : Distinct listing.patterns) (catalog : Catalog)
    (pattern : Atom) :
    (catalog.enter listing).byImport.get? pattern =
      if listing.patterns.contains pattern then some (catalog.under pattern ++ [listing.id])
      else catalog.byImport.get? pattern :=
  get?_pushAll distinct listing.id catalog.byImport pattern

theorem under_enter {listing : Listing} (distinct : Distinct listing.patterns) (catalog : Catalog)
    (pattern : Atom) :
    (catalog.enter listing).under pattern =
      catalog.under pattern ++ if listing.patterns.contains pattern then [listing.id] else [] := by
  rw [under, get?_enter distinct]
  cases listing.patterns.contains pattern <;> simp [under]

theorem under_foldl_enter {listings : List Listing}
    (distinct : ∀ listing ∈ listings, Distinct listing.patterns) (catalog : Catalog)
    (pattern : Atom) :
    (listings.foldl enter catalog).under pattern =
      catalog.under pattern ++
        (listings.filter fun listing => listing.patterns.contains pattern).map Listing.id := by
  induction listings generalizing catalog with
  | nil => simp
  | cons listing rest ih =>
      have restDistinct : ∀ other ∈ rest, Distinct other.patterns :=
        fun other member => distinct other (List.mem_cons_of_mem listing member)
      rw [List.foldl_cons, ih restDistinct, under_enter (distinct listing List.mem_cons_self),
        List.append_assoc, List.filter_cons]
      cases listing.patterns.contains pattern <;> simp

/-- Under a pattern the index holds the listings that have it, in their order. -/
theorem under_ofListings {listings : List Listing}
    (distinct : ∀ listing ∈ listings, Distinct listing.patterns) (pattern : Atom) :
    (ofListings listings).under pattern =
      (listings.filter fun listing => listing.patterns.contains pattern).map Listing.id :=
  under_foldl_enter distinct {} pattern

/-! ## The index is the inverse of the patterns -/

/-- The kept records that have a pattern, in their order. -/
def holders (components : List Component) (pattern : Atom) : List Text :=
  ((kept components).filter fun record => record.hasPattern pattern).map Component.id

/-- A catalog is made of the listings of the kept records. -/
theorem exists_listings {components : List Component} {catalog : Catalog}
    (built : ofComponents components = .ok catalog) :
    ∃ listings, (kept components).mapM Listing.ofComponent = .ok listings ∧
      (∀ listing ∈ listings, Distinct listing.patterns) ∧ catalog = ofListings listings := by
  rw [ofComponents_eq] at built
  cases listed : (kept components).mapM Listing.ofComponent with
  | error fault =>
      rw [listed] at built
      cases built
  | ok listings =>
      rw [listed] at built
      cases built
      refine ⟨listings, rfl, ?_, rfl⟩
      intro listing member
      rcases (mem_iff_of_mapM_eq_ok listed).1 member with ⟨record, -, isListing⟩
      exact Component.distinct_importPatterns (lists_of_ofComponent isListing).patterns

/-- The identifiers of a catalog are those of its records, each once, in their order. -/
theorem ids_ofComponents {components : List Component} {catalog : Catalog}
    (built : ofComponents components = .ok catalog) :
    catalog.ids = (components.map Component.id).eraseDups := by
  rcases exists_listings built with ⟨listings, listed, -, rfl⟩
  have sameIds : listings.map Listing.id = (kept components).map Component.id :=
    map_of_mapM_eq_ok listed fun _ _ isListing => (lists_of_ofComponent isListing).id.symm
  have entered : (ofListings listings).ids = [] ++ listings.map Listing.id := by
    apply ids_foldl_enter
    rw [sameIds]
    exact nodup_ids_kept components
  rw [entered, sameIds, List.nil_append, map_id_kept]

/-- Under a pattern the index of a catalog holds the kept records that have it. -/
theorem under_eq_holders {components : List Component} {catalog : Catalog}
    (built : ofComponents components = .ok catalog) (pattern : Atom) :
    catalog.under pattern = holders components pattern := by
  rcases exists_listings built with ⟨listings, listed, distinct, rfl⟩
  rw [under_ofListings distinct, holders]
  apply map_filter_of_mapM_eq_ok listed
  intro record listing isListing
  have lists := lists_of_ofComponent isListing
  exact ⟨Component.hasPattern_eq lists.patterns pattern, lists.id.symm⟩

/-! ## Records with texts -/

theorem exists_listing {component : Component} (textual : component.Textual) :
    ∃ listing, Listing.ofComponent component = .ok listing := by
  rcases textual.name with ⟨name, isName⟩
  rcases textual.path with ⟨path, isPath⟩
  rcases textual.directory with ⟨directory, isDirectory⟩
  rcases textual.exists_importPatterns with ⟨patterns, isPatterns⟩
  rw [Listing.ofComponent, isName, isPath, isDirectory, isPatterns]
  exact ⟨_, rfl⟩

theorem exists_ofComponents {components : List Component}
    (textual : ∀ component ∈ components, component.Textual) :
    ∃ catalog, ofComponents components = .ok catalog := by
  have each : ∀ record ∈ kept components, ∃ listing, Listing.ofComponent record = .ok listing := by
    intro record isKept
    exact exists_listing (textual record (newRecords_subset [] components isKept))
  rcases exists_mapM_eq_ok each with ⟨listings, listed⟩
  rw [ofComponents_eq, listed]
  exact ⟨_, rfl⟩

/-- Records with texts have a catalog, in which every kept record stands under its patterns. -/
theorem exists_catalog {components : List Component}
    (textual : ∀ component ∈ components, component.Textual) :
    ∃ catalog, ofComponents components = .ok catalog ∧
      ∀ record ∈ kept components, ∃ patterns, record.importPatterns = .ok patterns ∧
        ∀ pattern, patterns.contains pattern = true → record.id ∈ catalog.under pattern := by
  rcases exists_ofComponents textual with ⟨catalog, built⟩
  refine ⟨catalog, built, ?_⟩
  intro record isKept
  rcases (textual record (newRecords_subset [] components isKept)).exists_importPatterns with
    ⟨patterns, made⟩
  refine ⟨patterns, made, ?_⟩
  intro pattern hasPattern
  rw [under_eq_holders built, holders]
  apply List.mem_map_of_mem
  rw [List.mem_filter, Component.hasPattern_eq made]
  exact ⟨isKept, hasPattern⟩

end ImportAtlas.Catalog
