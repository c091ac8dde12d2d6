import ImportAtlas.DependencyGraph
import ImportAtlas.Proofs.Catalog.Holders
import ImportAtlas.Proofs.Digraph.Search
import Mathlib.Data.List.Induction

/-!
# The dependency graph in closed form

Components are entered one after the other. What results is said of the whole list at once: the
vertices are the identifiers in the order in which they first occur, and a vertex points to what
its records import, each target once. With the catalog of the same records every target is a
vertex, so the graph is closed, and since nothing imports itself a cycle has two members at least.
-/

namespace ImportAtlas.DependencyGraph

open Text

/-! ## Entering one more component -/

section Concat

variable (components : List Component) (catalog : Catalog) (component : Component)

theorem ofComponents_concat :
    ofComponents (components ++ [component]) catalog =
      addComponent catalog (ofComponents components catalog) component :=
  List.foldl_concat _ _ _ _

theorem targets_addComponent (graph : Digraph Text) (id : Text) :
    (addComponent catalog graph component).targets id =
      if component.id = id then (graph.targets id ++ catalog.importTargets component).eraseDups
      else graph.targets id := by
  rw [Digraph.targets, addComponent, Table.get?_insert]
  by_cases same : component.id = id
  · simp [same]
  · simp [same, Digraph.targets]

/-- The vertices are the identifiers in the order in which they first occur. -/
theorem keys_ofComponents :
    (ofComponents components catalog).keys = (components.map Component.id).eraseDups := by
  induction components using List.reverseRecOn with
  | nil => rfl
  | append_singleton earlier component ih =>
      rw [ofComponents_concat, addComponent, List.map_append, List.map_singleton, eraseDups_concat]
      have isKnown : (ofComponents earlier catalog).contains component.id =
          (earlier.map Component.id).contains component.id := by
        rw [Table.contains_eq_contains_keys, ih, contains_eraseDups]
      cases known : (earlier.map Component.id).contains component.id with
      | true => rw [Table.keys_insert_of_known (isKnown.trans known), ih, if_pos rfl]
      | false =>
          rw [Table.keys_insert_of_new (isKnown.trans known), ih, if_neg Bool.false_ne_true]

theorem mem_keys_ofComponents (id : Text) :
    id ∈ (ofComponents components catalog).keys ↔ id ∈ components.map Component.id := by
  rw [keys_ofComponents, List.mem_eraseDups]

/-- A vertex points to what the records of its identifier import, in their order and each once. -/
theorem targets_ofComponents (id : Text) :
    (ofComponents components catalog).targets id =
      ((components.filter fun component => component.id = id).flatMap
        catalog.importTargets).eraseDups := by
  induction components using List.reverseRecOn with
  | nil => rfl
  | append_singleton earlier component ih =>
      rw [ofComponents_concat, targets_addComponent, ih, List.filter_append, List.flatMap_append]
      by_cases same : component.id = id
      · simp [same, eraseDups_append_eraseDups]
      · simp [same]

end Concat

/-! ## Edges -/

variable {components : List Component} {catalog : Catalog}

theorem mem_importTargets {component : Component} {target : Text} :
    target ∈ catalog.importTargets component ↔
      target ≠ component.id ∧
        ∃ specifier ∈ component.imports, target ∈ catalog.resolveImport specifier := by
  simp [Catalog.importTargets, and_comm]

theorem mem_targets_iff {source target : Text} :
    target ∈ (ofComponents components catalog).targets source ↔
      target ≠ source ∧ ∃ record ∈ components, record.id = source ∧
        ∃ specifier ∈ record.imports, target ∈ catalog.resolveImport specifier := by
  rw [targets_ofComponents, List.mem_eraseDups, List.mem_flatMap]
  simp only [List.mem_filter, decide_eq_true_eq, mem_importTargets]
  constructor
  · rintro ⟨record, ⟨isRecord, rfl⟩, different, imported⟩
    exact ⟨different, record, isRecord, rfl, imported⟩
  · rintro ⟨different, record, isRecord, rfl, imported⟩
    exact ⟨record, ⟨isRecord, rfl⟩, different, imported⟩

/-- What is said of an entry can be said of the targets of its vertex. -/
theorem targets_of_entry {entry : Text × List Text}
    (member : entry ∈ (ofComponents components catalog).entries) :
    (ofComponents components catalog).targets entry.1 = entry.2 :=
  Digraph.targets_of_mem member (BEq.refl entry.1)

/-- Every vertex is a component, and with the catalog of the same components so is every target. -/
theorem mem_keys_of_mem_targets (built : Catalog.ofComponents components = .ok catalog)
    {source target : Text} (pointed : target ∈ (ofComponents components catalog).targets source) :
    target ∈ (ofComponents components catalog).keys := by
  rcases mem_targets_iff.1 pointed with ⟨-, record, -, -, specifier, -, resolved⟩
  rw [mem_keys_ofComponents]
  exact Catalog.mem_ids_of_mem_resolveImport built resolved

theorem contains_catalog_iff (built : Catalog.ofComponents components = .ok catalog) {id : Text} :
    catalog.contains id = true ↔ id ∈ (ofComponents components catalog).keys := by
  rw [Catalog.contains, Table.contains_eq_contains_keys, keys_ofComponents,
    ← Catalog.ids_ofComponents built, List.contains_iff_mem, Catalog.ids]

/-! ## Cycles -/

/-- No component imports itself, so a cycle has two members at least. -/
theorem two_le_length_of_isCycle {walk : List Text}
    (isCycle : (ofComponents components catalog).IsCycle walk) : 2 ≤ walk.length := by
  match walk, isCycle with
  | [], isCycle => exact absurd rfl isCycle.nonempty
  | [id], isCycle =>
      have loop : (ofComponents components catalog).Edge id id := isCycle.edge ⟨0, by simp, by simp⟩
      rw [Digraph.edge_iff_mem, mem_targets_iff] at loop
      exact absurd rfl loop.1
  | first :: second :: rest, isCycle => simp

theorem mem_keys_of_isCycle {walk : List Text}
    (isCycle : (ofComponents components catalog).IsCycle walk) {id : Text} (member : id ∈ walk) :
    id ∈ (ofComponents components catalog).keys := by
  rcases Digraph.Follows.exists_of_mem member with ⟨next, follows⟩
  exact List.contains_iff_mem.1 (isCycle.edge follows).source_known

/-- What a graph of some components and their catalog has to be. -/
structure WellFormed (components : List Component) (catalog : Catalog) (graph : Digraph Text) :
    Prop where
  /-- Its vertices are the identifiers, in the order in which they first occur. -/
  keys : graph.keys = (components.map Component.id).eraseDups
  keysNodup : graph.keys.Nodup
  targetsNodup : ∀ entry ∈ graph.entries, entry.2.Nodup
  noLoop : ∀ entry ∈ graph.entries, entry.1 ∉ entry.2
  /-- Every target is a vertex. -/
  closed : ∀ entry ∈ graph.entries, ∀ target ∈ entry.2, target ∈ graph.keys
  /-- One vertex points to another if a record of the one has an import that means the other. -/
  imported : ∀ source target, target ∈ graph.targets source ↔
    target ≠ source ∧ ∃ record ∈ components, record.id = source ∧
      ∃ specifier ∈ record.imports, target ∈ catalog.resolveImport specifier

/-- Components whose fields are texts have a catalog, and their dependency graph is well formed.
So every reported cycle has two members at least, and the catalog knows them all. -/
theorem ofComponents_wellFormed (textual : ∀ component ∈ components, component.Textual) :
    ∃ catalog, Catalog.ofComponents components = .ok catalog ∧
      WellFormed components catalog (ofComponents components catalog) ∧
      ∀ cycle ∈ (ofComponents components catalog).findCycles,
        2 ≤ cycle.length ∧ ∀ id ∈ cycle, catalog.contains id = true := by
  rcases Catalog.exists_ofComponents textual with ⟨catalog, built⟩
  refine ⟨catalog, built, ?_, ?_⟩
  · constructor
    · exact keys_ofComponents components catalog
    · rw [keys_ofComponents]
      exact (distinct_eraseDups _).nodup
    · intro entry member
      rw [← targets_of_entry member, targets_ofComponents]
      exact (distinct_eraseDups _).nodup
    · intro entry member loop
      rw [← targets_of_entry member, mem_targets_iff] at loop
      exact loop.1 rfl
    · intro entry member target pointed
      rw [← targets_of_entry member] at pointed
      exact mem_keys_of_mem_targets built pointed
    · intro source target
      exact mem_targets_iff
  · intro cycle reported
    have isCycle := (Digraph.isCycle_of_mem_findCycles reported).2
    refine ⟨two_le_length_of_isCycle isCycle, ?_⟩
    intro id member
    rw [contains_catalog_iff built]
    exact mem_keys_of_isCycle isCycle member

/-- Two records of one component, which imports itself, a package and, through an alias of the
project root, a component that imports it back. -/
def quarters : List Component :=
  [{ name := .text "App", path := .text "src/App.tsx",
     imports := [.text "./Menu", .text "./App", .text "react"] },
   { name := .text "Menu", path := .text "src/Menu.tsx", imports := [.text "@/App"] },
   { name := .text "App", path := .text "src/App.tsx",
     imports := [.text "./Menu", .text "./Icon"] },
   { name := .text "Icon", path := .text "src/Icon.tsx" }]

theorem quarters_wellFormed :
    (∀ component ∈ quarters, component.Textual) ∧
    ∃ catalog, Catalog.ofComponents quarters = .ok catalog ∧
      (ofComponents quarters catalog).keys =
        ["src/App.tsx#App", "src/Menu.tsx#Menu", "src/Icon.tsx#Icon"] ∧
      ofString "src/App.tsx#App" ∈ (ofComponents quarters catalog).targets "src/Menu.tsx#Menu" ∧
      ∀ cycle ∈ (ofComponents quarters catalog).findCycles,
        2 ≤ cycle.length ∧ ∀ id ∈ cycle, catalog.contains id = true := by
  have textual : ∀ component ∈ quarters, component.Textual := by decide
  rcases ofComponents_wellFormed textual with ⟨catalog, built, wellFormed, cycles⟩
  refine ⟨textual, catalog, built, ?_, ?_, cycles⟩
  · rw [wellFormed.keys]
    decide +kernel
  · rw [wellFormed.imported]
    have noPackage : catalog.isExternal "@/App" = false := Catalog.isExternal_eq_false (by decide)
    refine ⟨by decide, quarters[1], by simp [quarters], rfl, .text "@/App", by simp [quarters], ?_⟩
    rw [Catalog.resolveImport, Catalog.resolve_eq built, noPackage]
    decide +kernel

end ImportAtlas.DependencyGraph
