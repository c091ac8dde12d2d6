import ImportAtlas.CallGraph
import ImportAtlas.Proofs.Digraph.Stranded
import ImportAtlas.Proofs.Except

/-!
# The two layers of the call graph

The call graph is the dependency graph beside a graph of functions. The entries of components
are those of the dependency graph, in its order, and the functions of a component call functions
of that component only. So no edge joins a component and a function, and paths between components
and the components that are stranded are those of the dependency graph. The vertices that are
listed on the way are the keys of the graph.
-/

namespace ImportAtlas.CallGraph

/-- A vertex that stands for a component. -/
def isComponent (vertex : Vertex) : Bool := vertex.component?.isSome

theorem isComponent_congr {left right : Vertex} (equal : (left == right) = true) :
    isComponent left = isComponent right := by
  cases left <;> cases right <;> simp_all [isComponent, Vertex.component?]

/-- An entry of the dependency graph as it stands in the call graph. -/
def importEntry (entry : Text × List Text) : Vertex × List Vertex :=
  (.component entry.1, entry.2.map .component)

/-- The component layer of a call graph is a dependency graph, and the other layer joins
functions of one component. -/
structure Layered (graph : Digraph Vertex) (imports : Digraph Text) : Prop where
  imports : graph.entries.filter (fun entry => isComponent entry.1) =
    imports.entries.map importEntry
  calls : ∀ entry ∈ graph.entries, ∀ {owner name}, entry.1 = .function owner name →
    ∀ target ∈ entry.2, ∃ callee, target = .function owner callee

/-- Entering a function writes its callees, as functions of the same component, under it. -/
theorem exists_enter_of_addFunction {owner : Text} {calls : Table Text (List Json)}
    {before after : CallGraph} {function : Json}
    (added : addFunction owner calls before function = .ok after) :
    ∃ (name : Atom) (callees : List Atom), after =
      before.enter (.function owner name) (callees.map (Vertex.function owner)).eraseDups := by
  obtain ⟨name, -, added⟩ := bind_eq_ok_iff.1 added
  obtain ⟨callees, -, added⟩ := bind_eq_ok_iff.1 added
  cases added
  exact ⟨name, callees, rfl⟩

namespace Layered

variable {graph : Digraph Vertex} {imports : Digraph Text}

/-! ## Edges between components -/

theorem get?_component (layered : Layered graph imports) (id : Text) :
    graph.get? (.component id) = (imports.get? id).map (List.map Vertex.component) := by
  have onlyComponents : (fun entry : Vertex × List Vertex => entry.1 == .component id) =
      fun entry => decide (isComponent entry.1 = true ∧ (entry.1 == .component id) = true) := by
    funext entry
    rw [Bool.eq_iff_iff]
    cases entry.1 <;> simp [isComponent, Vertex.component?]
  have sameKey : ((fun entry : Vertex × List Vertex => entry.1 == .component id) ∘ importEntry) =
      fun entry => entry.1 == id := rfl
  unfold Table.get?
  rw [onlyComponents, ← List.find?_filter, layered.imports, List.find?_map, sameKey, Option.map_map,
    Option.map_map]
  rfl

theorem targets_component (layered : Layered graph imports) (id : Text) :
    graph.targets (.component id) = (imports.targets id).map Vertex.component := by
  unfold Digraph.targets
  rw [layered.get?_component]
  cases imports.get? id <;> rfl

theorem contains_keys_component (layered : Layered graph imports) (id : Text) :
    graph.keys.contains (.component id) = true ↔ id ∈ imports.keys := by
  rw [Table.contains_keys_iff, layered.get?_component, ← List.contains_iff_mem,
    Table.contains_keys_iff]
  cases imports.get? id <;> simp

theorem edge_component_iff (layered : Layered graph imports) {source target : Text} :
    graph.Edge (.component source) (.component target) ↔ imports.Edge source target := by
  unfold Digraph.Edge
  rw [layered.targets_component, List.contains_map]
  simp

/-- An edge is one of the dependency graph or joins two functions of one component. -/
theorem edge_cases (layered : Layered graph imports) {source target : Vertex}
    (edge : graph.Edge source target) :
    (∃ sourceId targetId, source = .component sourceId ∧ target = .component targetId ∧
      imports.Edge sourceId targetId) ∨
    ∃ owner caller callee, source = .function owner caller ∧ target = .function owner callee := by
  obtain ⟨targets, found⟩ := Table.contains_keys_iff.1 edge.source_known
  obtain ⟨entry, member, equal, -⟩ := Table.exists_entry_of_get? found
  obtain ⟨other, isTarget, same⟩ : ∃ other ∈ graph.targets source, (target == other) = true :=
    List.contains_iff_exists_mem_beq.1 edge
  cases source with
  | component id =>
      rw [layered.targets_component, List.mem_map] at isTarget
      obtain ⟨targetId, -, rfl⟩ := isTarget
      cases target with
      | component otherId => exact .inl ⟨id, otherId, rfl, rfl, layered.edge_component_iff.1 edge⟩
      | function owner name => cases same
  | function owner name =>
      rw [Digraph.targets_of_mem member equal] at isTarget
      cases key : entry.1 with
      | component id =>
          rw [key] at equal
          cases equal
      | function keyOwner keyName =>
          obtain ⟨callee, rfl⟩ := layered.calls entry member key other isTarget
          rw [key, Vertex.beq_function, Bool.and_eq_true, beq_iff_eq] at equal
          cases target with
          | component id => cases same
          | function targetOwner targetName =>
              rw [Vertex.beq_function, Bool.and_eq_true, beq_iff_eq] at same
              rw [same.1, ← equal.1]
              exact .inr ⟨keyOwner, name, targetName, rfl, rfl⟩

/-- Only components point to components. -/
theorem exists_component_of_edge (layered : Layered graph imports) {source : Vertex} {target : Text}
    (edge : graph.Edge source (.component target)) :
    ∃ id, source = .component id ∧ imports.Edge id target := by
  cases layered.edge_cases edge with
  | inl imported =>
      rcases imported with ⟨id, targetId, rfl, isTarget, imported⟩
      cases isTarget
      exact ⟨id, rfl, imported⟩
  | inr called =>
      rcases called with ⟨owner, caller, callee, -, isTarget⟩
      cases isTarget

/-- Paths to a component are paths of the dependency graph. -/
theorem exists_component_of_leads (layered : Layered graph imports) {source : Vertex}
    {target : Text} (leads : graph.Leads source (.component target)) :
    ∃ id, source = .component id ∧ imports.Leads id target := by
  rcases leads with equal | path
  · cases source with
    | component id => exact ⟨id, rfl, .inl equal⟩
    | function owner name => cases equal
  · induction path using Relation.TransGen.head_induction_on with
    | single edge =>
        obtain ⟨id, isComponent, edge⟩ := layered.exists_component_of_edge edge
        exact ⟨id, isComponent, .of_edge edge⟩
    | head edge _ ih =>
        obtain ⟨next, rfl, leads⟩ := ih
        obtain ⟨id, isComponent, edge⟩ := layered.exists_component_of_edge edge
        exact ⟨id, isComponent, .trans (.of_edge edge) leads⟩

theorem leads_component (layered : Layered graph imports) {source target : Text}
    (leads : imports.Leads source target) :
    graph.Leads (.component source) (.component target) := by
  apply leads.induct fun id => graph.Leads (.component source) (.component id)
  · intro left right equal reaches
    exact reaches.congr_right equal
  · intro left right edge reaches
    exact reaches.tail (layered.edge_component_iff.2 edge)
  · exact .refl graph _

/-- A component is stranded in the call graph exactly if it is in the dependency graph. -/
theorem stranded_component_iff (layered : Layered graph imports) {id : Text} :
    graph.Stranded (.component id) ↔ imports.Stranded id := by
  constructor
  · intro stranded
    refine ⟨?_, ?_⟩
    · rw [List.contains_iff_mem, ← layered.contains_keys_component]
      exact stranded.known
    · intro entry isEntry leads
      apply stranded.unreachable (.component entry) _ (layered.leads_component leads)
      intro source edge
      obtain ⟨sourceId, -, edge⟩ := layered.exists_component_of_edge edge
      exact isEntry sourceId edge
  · intro stranded
    refine ⟨?_, ?_⟩
    · rw [layered.contains_keys_component, ← List.contains_iff_mem]
      exact stranded.known
    · intro entry isEntry leads
      obtain ⟨entryId, rfl, importsLead⟩ := layered.exists_component_of_leads leads
      apply stranded.unreachable entryId _ importsLead
      intro source edge
      exact isEntry (.component source) (layered.edge_component_iff.2 edge)

/-- Every stranded component is led to by an import cycle of stranded components. -/
theorem exists_cycle (layered : Layered graph imports) {id : Text}
    (stranded : graph.Stranded (.component id)) :
    ∃ cycle ∈ imports.findCycles, ∀ member ∈ cycle,
      imports.Leads member id ∧ graph.Stranded (.component member) := by
  simp only [layered.stranded_component_iff] at stranded ⊢
  exact stranded.exists_cycle

/-! ## Entering components and functions -/

theorem empty : Layered ∅ ∅ where
  imports := rfl
  calls := by simp

variable {before after : CallGraph}

theorem addImports (layered : Layered before.graph imports) (catalog : Catalog)
    (component : Component) :
    Layered (CallGraph.addImports catalog before component).graph
      (DependencyGraph.addComponent catalog imports component) := by
  have faithful : ∀ left right : Text,
      (Vertex.component left == Vertex.component right) = (left == right) := fun _ _ => rfl
  have targets : (before.graph.targets (.component component.id) ++
      (catalog.importTargets component).map Vertex.component).eraseDups =
      (imports.targets component.id ++ catalog.importTargets component).eraseDups.map
        Vertex.component := by
    rw [layered.targets_component, ← List.map_append, eraseDups_map faithful]
  have written : (CallGraph.addImports catalog before component).graph =
      before.graph.insert (.component component.id)
        ((imports.targets component.id ++ catalog.importTargets component).eraseDups.map
          Vertex.component) := congrArg (before.graph.insert (.component component.id)) targets
  rw [written]
  constructor
  · rw [Table.entries_insert, Table.filter_put_of_keep isComponent_congr rfl, layered.imports]
    exact (Table.map_put faithful _ _ _ _).symm
  · intro entry member owner name isFunction target isTarget
    rcases Table.mem_put member with old | ⟨equal, -⟩
    · exact layered.calls entry old isFunction target isTarget
    · rw [isFunction] at equal
      cases equal

theorem insertFunction (layered : Layered graph imports) (owner : Text) (name : Atom)
    (callees : List Atom) :
    Layered (graph.insert (.function owner name) (callees.map (Vertex.function owner)).eraseDups)
      imports := by
  constructor
  · rw [Table.entries_insert, Table.filter_put_of_not isComponent_congr rfl]
    exact layered.imports
  · intro entry member keyOwner keyName isFunction target isTarget
    rcases Table.mem_put member with old | ⟨equal, isValue⟩
    · exact layered.calls entry old isFunction target isTarget
    · rw [isValue] at isTarget
      obtain ⟨callee, -, rfl⟩ := List.mem_map.1 (mem_of_mem_eraseDups isTarget)
      rw [isFunction, Vertex.beq_function, Bool.and_eq_true, beq_iff_eq] at equal
      exact ⟨callee, by rw [equal.1]⟩

theorem addFunctions (layered : Layered before.graph imports) {component : Component}
    (added : CallGraph.addFunctions component before = .ok after) :
    Layered after.graph imports := by
  unfold CallGraph.addFunctions at added
  split at added
  · refine foldlM_induct (fun built => Layered built.graph imports) ?_ added layered
    intro before function after entered layered
    obtain ⟨name, callees, rfl⟩ := exists_enter_of_addFunction entered
    exact layered.insertFunction component.id name callees
  · cases added
    exact layered

theorem addComponents (components : List Component) (catalog : Catalog)
    (layered : Layered before.graph imports)
    (added : components.foldlM (CallGraph.addComponent catalog) before = .ok after) :
    Layered after.graph (components.foldl (DependencyGraph.addComponent catalog) imports) := by
  induction components generalizing before imports with
  | nil =>
      cases added
      exact layered
  | cons component rest ih =>
      rw [List.foldlM_cons] at added
      obtain ⟨next, entered, added⟩ := bind_eq_ok_iff.1 added
      exact ih ((layered.addImports catalog component).addFunctions entered) added

end Layered

/-! ## The listed vertices -/

/-- The listed vertices are the keys of the graph, in their order. -/
def InStep (built : CallGraph) : Prop := built.vertices.keys = built.graph.keys

namespace InStep

variable {before after : CallGraph}

theorem enter (inStep : InStep before) (vertex : Vertex) (targets : List Vertex) :
    InStep (before.enter vertex targets) :=
  Table.keys_insert_congr inStep vertex () targets

theorem addComponent (inStep : InStep before) {catalog : Catalog} {component : Component}
    (added : CallGraph.addComponent catalog before component = .ok after) : InStep after := by
  have imported : InStep (CallGraph.addImports catalog before component) := inStep.enter _ _
  unfold CallGraph.addComponent CallGraph.addFunctions at added
  split at added
  · refine foldlM_induct InStep ?_ added imported
    intro before function after entered inStep
    obtain ⟨name, callees, rfl⟩ := exists_enter_of_addFunction entered
    exact inStep.enter _ _
  · cases added
    exact imported

end InStep

section Built

variable {components : List Component} {catalog : Catalog} {built : CallGraph}

/-- The vertices of a call graph are its keys: both are entered at once. -/
theorem build_inStep (isBuilt : build components catalog = .ok built) : InStep built :=
  foldlM_induct InStep (fun added inStep => inStep.addComponent added) isBuilt rfl

theorem build_layered (isBuilt : build components catalog = .ok built) :
    Layered built.graph (DependencyGraph.ofComponents components catalog) :=
  Layered.empty.addComponents components catalog isBuilt

/-- A graph of components comes with its list of vertices. -/
theorem exists_build_of_ofComponents {graph : Digraph Vertex}
    (isBuilt : ofComponents components catalog = .ok graph) :
    ∃ vertices, build components catalog = .ok ⟨vertices, graph⟩ := by
  obtain ⟨built, made, rfl⟩ := map_eq_ok_iff.1 isBuilt
  exact ⟨built.vertices, made⟩

/-- The component layer of the call graph of some components is their dependency graph. -/
theorem ofComponents_layered {graph : Digraph Vertex}
    (isBuilt : ofComponents components catalog = .ok graph) :
    Layered graph (DependencyGraph.ofComponents components catalog) := by
  obtain ⟨vertices, made⟩ := exists_build_of_ofComponents isBuilt
  exact build_layered made

end Built

/-- The component vertices of a layered graph are the vertices of its dependency graph. -/
theorem Layered.keys_component {graph : Digraph Vertex} {imports : Digraph Text}
    (layered : Layered graph imports) : graph.keys.filterMap Vertex.component? = imports.keys := by
  have selected : (graph.entries.filter fun entry => isComponent entry.1).filterMap
      (fun entry => entry.1.component?) = graph.keys.filterMap Vertex.component? := by
    unfold Table.keys
    rw [List.filterMap_filter, List.filterMap_map]
    congr 1
    funext entry
    cases known : entry.1.component? <;> simp [isComponent, known]
  rw [← selected, layered.imports, List.filterMap_map]
  exact congrFun List.filterMap_eq_map' imports.entries

/-- The call graph cut down to its components is the dependency graph: it has the same components
in the same order, each with the same targets in the same order, and they are the components
among the listed vertices, which are the keys of the graph. -/
theorem components_as_in_dependencyGraph {components : List Component} {catalog : Catalog}
    {built : CallGraph} (isBuilt : build components catalog = .ok built) :
    built.graph.entries.filter (fun entry => isComponent entry.1) =
        (DependencyGraph.ofComponents components catalog).entries.map importEntry ∧
      built.vertices.keys = built.graph.keys ∧
      built.vertices.keys.filterMap Vertex.component? =
        (DependencyGraph.ofComponents components catalog).keys := by
  have layered := build_layered isBuilt
  have inStep : built.vertices.keys = built.graph.keys := build_inStep isBuilt
  refine ⟨layered.imports, inStep, ?_⟩
  rw [inStep]
  exact layered.keys_component

deriving instance DecidableEq for CallGraph

/-- Two records of one component, which imports itself, declares a function twice and imports
something that is no vertex, with a component between them that has functions but no calls. -/
def shards : List Component :=
  [{ name := .text "app", path := .text "a", imports := [.text "./ui", .text "./app"],
     functions := some [.text "run", .text "run"],
     calls := some (Table.ofList [("run", [.text "stop", .text "run"])]) },
   { name := .text "ui", path := .text "b", functions := some [.text "draw"] },
   { name := .text "app", path := .text "a", imports := [.text "./net", .text "./ui"],
     functions := some [.text "run"], calls := some ∅ }]

def shardCatalog : Catalog where
  byImport := Table.ofList
    [(.text "app", ["a#app"]), (.text "ui", ["b#ui"]), (.text "net", ["c#net"])]

def shardGraph : CallGraph where
  vertices := Table.ofList
    [(.component "a#app", ()), (.function "a#app" (.text "run"), ()), (.component "b#ui", ())]
  graph := Table.ofList
    [(.component "a#app", [.component "b#ui", .component "c#net"]),
     (.function "a#app" (.text "run"), []),
     (.component "b#ui", [])]

theorem shards_as_in_dependencyGraph :
    build shards shardCatalog = .ok shardGraph ∧
    shardGraph.vertices.keys = shardGraph.graph.keys ∧
    (DependencyGraph.ofComponents shards shardCatalog).entries.map importEntry =
      [(.component "a#app", [.component "b#ui", .component "c#net"]), (.component "b#ui", [])] ∧
    (DependencyGraph.ofComponents shards shardCatalog).keys = ["a#app", "b#ui"] := by
  have isBuilt : build shards shardCatalog = .ok shardGraph := by decide +kernel
  obtain ⟨entries, inStep, keys⟩ := components_as_in_dependencyGraph isBuilt
  refine ⟨isBuilt, inStep, ?_, ?_⟩
  · rw [← entries]
    decide +kernel
  · rw [← keys]
    decide +kernel

end ImportAtlas.CallGraph
