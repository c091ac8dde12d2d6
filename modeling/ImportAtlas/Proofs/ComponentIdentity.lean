import ImportAtlas.Proofs.Catalog.Views
import ImportAtlas.Proofs.DependencyGraph
import Mathlib.Data.Set.Card

/-!
# Identifiers tell components apart

An identifier is a path and a name with a separator between them, and any path may hold the
separator too. As long as no name holds it, the last separator is the one between the two, so that
an identifier tells its path and its name. Hence neither the catalog nor the dependency graph ever
takes two components for one.
-/

namespace ImportAtlas

variable {components : List Component} {catalog : Catalog}

/-- The pairs of a path and a name that some record has. -/
def pathsAndNames (components : List Component) : Set (Json × Json) :=
  {pair | ∃ component ∈ components, (component.path, component.name) = pair}

namespace Catalog

/-- Every record has the path and the name of some kept record. -/
theorem exists_kept_of_separated (separated : ∀ component ∈ components, component.Separated)
    {component : Component} (member : component ∈ components) :
    ∃ record ∈ kept components, record.id = component.id ∧ record.path = component.path ∧
      record.name = component.name := by
  rcases exists_kept member with ⟨record, isKept, isRecord, sameId⟩
  have same := ((separated record isRecord).id_eq_iff (separated component member)).1 sameId
  exact ⟨record, isKept, sameId, same⟩

theorem nodup_pairs_kept (components : List Component) :
    ((kept components).map fun record => (record.path, record.name)).Nodup := by
  have idsNodup := nodup_ids_kept components
  rw [List.Nodup, List.pairwise_map] at idsNodup ⊢
  apply idsNodup.imp
  intro left right different same
  rw [Prod.mk.injEq] at same
  exact different (by rw [Component.id, Component.id, same.1, same.2])

/-- The kept records have each pair of a path and a name once. -/
theorem ncard_pathsAndNames (separated : ∀ component ∈ components, component.Separated) :
    (pathsAndNames components).ncard = (kept components).length := by
  classical
  have same : pathsAndNames components =
      (((kept components).map fun record => (record.path, record.name)).toFinset :
        Set (Json × Json)) := by
    ext pair
    rw [List.coe_toFinset, Set.mem_ofPred_eq, List.mem_map]
    constructor
    · rintro ⟨component, member, rfl⟩
      rcases exists_kept_of_separated separated member with
        ⟨record, isKept, -, samePath, sameName⟩
      exact ⟨record, isKept, by rw [samePath, sameName]⟩
    · rintro ⟨record, isKept, isPair⟩
      exact ⟨record, newRecords_subset [] components isKept, isPair⟩
  rw [same, Set.ncard_coe_finset, List.toFinset_card_of_nodup (nodup_pairs_kept components),
    List.length_map]

/-- Under the identifier of a record the catalog holds a record with its path and its name. -/
theorem exists_get?_of_separated (separated : ∀ component ∈ components, component.Separated)
    (built : ofComponents components = .ok catalog) {component : Component}
    (member : component ∈ components) :
    ∃ listing, catalog.get? component.id = some listing ∧
      listing.component.path = component.path ∧ listing.component.name = component.name := by
  have found := (views_ofComponents built).byId component.id
  cases first : (kept components).find? fun record => record.id = component.id with
  | none =>
      rcases exists_kept member with ⟨record, isKept, -, sameId⟩
      simpa [sameId] using List.find?_eq_none.1 first record isKept
  | some record =>
      rw [first, Option.map_eq_some_iff] at found
      rcases found with ⟨listing, isListing, rfl⟩
      have isRecord := newRecords_subset [] components (List.mem_of_find?_eq_some first)
      have sameId : listing.component.id = component.id := by simpa using List.find?_some first
      exact ⟨listing, isListing,
        ((separated _ isRecord).id_eq_iff (separated component member)).1 sameId⟩

end Catalog

theorem DependencyGraph.size_ofComponents (components : List Component) (catalog : Catalog) :
    (ofComponents components catalog).size = (Catalog.kept components).length := by
  have keys := keys_ofComponents components catalog
  rw [← Catalog.map_id_kept] at keys
  have sameLength := congrArg List.length keys
  rwa [Table.keys, List.length_map, List.length_map] at sameLength

/-- Components are never taken for one another. Where paths and names are texts and no name holds
the separator, records share an identifier exactly if they share path and name. So the dependency
graph, whatever catalog it is made with, and the catalog have as many vertices and records as there
are pairs of a path and a name, and the catalog answers every record's identifier with a record of
its path and name. Directories that are texts make sure that there is a catalog. -/
theorem distinct_components_stay_apart
    (separated : ∀ component ∈ components, component.Separated) :
    (∀ left ∈ components, ∀ right ∈ components,
      left.id = right.id ↔ left.path = right.path ∧ left.name = right.name) ∧
    (∀ catalog, (DependencyGraph.ofComponents components catalog).size =
      (pathsAndNames components).ncard) ∧
    (∀ catalog, Catalog.ofComponents components = .ok catalog →
      catalog.size = (pathsAndNames components).ncard ∧
      ∀ component ∈ components, ∃ listing, catalog.get? component.id = some listing ∧
        listing.component.path = component.path ∧ listing.component.name = component.name) ∧
    ((∀ component ∈ components, ∃ directory : Text, component.directory = .text directory) →
      ∃ catalog, Catalog.ofComponents components = .ok catalog) := by
  refine ⟨?_, ?_, ?_, ?_⟩
  · intro left isLeft right isRight
    exact (separated left isLeft).id_eq_iff (separated right isRight)
  · intro catalog
    rw [DependencyGraph.size_ofComponents, Catalog.ncard_pathsAndNames separated]
  · intro catalog built
    rw [(Catalog.views_ofComponents built).count, Catalog.ncard_pathsAndNames separated]
    exact ⟨rfl, fun component member => Catalog.exists_get?_of_separated separated built member⟩
  · intro directories
    apply Catalog.exists_ofComponents
    intro component member
    rcases (separated component member).name with ⟨name, isName, -⟩
    exact ⟨⟨name, isName⟩, (separated component member).path, directories component member⟩

/-- Paths that hold the separator, one of which is the identifier of another component, and two
records of one component. -/
def warrens : List Component :=
  [{ name := .text "B", path := .text "a#b" },
   { name := .text "b", path := .text "a" },
   { name := .text "B", path := .text "a#b", directory := .text "late" },
   { name := .text "B", path := .text "a#b#b" }]

theorem warrens_stay_apart :
    (∀ component ∈ warrens, component.Separated) ∧
    ∃ catalog, Catalog.ofComponents warrens = .ok catalog ∧ catalog.size = 3 ∧
      (pathsAndNames warrens).ncard = 3 ∧
      (DependencyGraph.ofComponents warrens catalog).size = 3 ∧
      ∃ listing, catalog.get? "a#b#B" = some listing ∧ listing.component.path = .text "a#b" := by
  have textual : ∀ component ∈ warrens, component.Textual := by decide
  have free : ∀ component ∈ warrens, ∀ name ∈ component.name.text?, .char '#' ∉ name := by decide
  have separated : ∀ component ∈ warrens, component.Separated := by
    intro component member
    exact (textual component member).separated (free component member)
  rcases distinct_components_stay_apart separated with ⟨-, vertices, records, hasCatalog⟩
  rcases hasCatalog fun component member => (textual component member).directory with
    ⟨catalog, built⟩
  rcases records catalog built with ⟨count, answers⟩
  have three : (pathsAndNames warrens).ncard = 3 := by
    rw [Catalog.ncard_pathsAndNames separated]
    rfl
  rcases answers warrens[0] (by simp [warrens]) with ⟨listing, isListing, samePath, -⟩
  exact ⟨separated, catalog, built, count.trans three, three, (vertices catalog).trans three,
    listing, isListing, samePath⟩

end ImportAtlas
