import ImportAtlas.Proofs.Digraph.Checked
import ImportAtlas.Proofs.Digraph.Partition
import ImportAtlas.Proofs.ZombieClusters

/-!
# What a cluster holds

Clusters divide vertices by what leads to them. The first statement says this of the clusters of
any vertices in any graph. The second adds what the edges of a call graph are like: they stay
among the components or among the functions of one component, and so does a cluster.
-/

namespace ImportAtlas

/-! ## Clusters of any vertices -/

/-- A component, or a function whose name is a text. -/
def Vertex.isTextual : Vertex → Bool
  | .component _ => true
  | .function _ name => name.text?.isSome

/-- A textual vertex equals no vertex that is spelled differently. -/
theorem Vertex.eq_of_beq_textual {vertex other : Vertex} (textual : vertex.isTextual = true)
    (equal : (other == vertex) = true) : other = vertex := by
  cases vertex with
  | component id =>
      cases other with
      | component otherId =>
          rw [beq_component, beq_iff_eq] at equal
          rw [equal]
      | function owner name => cases equal
  | function owner name =>
      cases other with
      | component id => cases equal
      | function otherOwner otherName =>
          rw [beq_function, Bool.and_eq_true, beq_iff_eq] at equal
          cases name <;> cases textual
          rw [equal.1, Atom.eq_of_beq_text equal.2]

namespace Digraph

theorem induced_congr {V : Type} [BEq V] (graph : Digraph V) {pool vertices : List V}
    (same : ∀ vertex, pool.contains vertex = vertices.contains vertex) :
    graph.induced pool = graph.induced vertices := by
  have sameTest : pool.contains = vertices.contains := funext same
  simp only [induced, same, sameTest]

/-- The clusters of some vertices divide them by what the seeds lead to. -/
structure ForwardPartition (vertices : List Vertex) (graph : Digraph Vertex)
    (clusters : List (List Vertex)) : Prop where
  /-- Together the clusters hold each vertex once, perhaps spelled as the graph spells it. -/
  sameItems : SameItems clusters.flatten vertices.eraseDups
  /-- Textual vertices have one spelling. -/
  perm : (∀ vertex ∈ vertices, vertex.isTextual = true) → clusters.flatten.Perm vertices.eraseDups
  /-- A cluster begins with the first vertex in no earlier cluster, and holds what that vertex leads
  to among all the vertices, less the earlier clusters. -/
  seeded : ∀ (position : Nat) (cluster : List Vertex), clusters[position]? = some cluster →
    ∃ seed, cluster.head? = some seed ∧
      vertices.find? (fun vertex => !(membersBefore clusters position).contains vertex) =
        some seed ∧
      ∀ vertex, cluster.contains vertex = true ↔
        (membersBefore clusters position).contains vertex = false ∧
          (graph.induced vertices).Leads seed vertex
  /-- An edge between two clusters leads from the later one to the earlier one. -/
  descends : ∀ (position otherPosition : Nat) (cluster other : List Vertex),
    clusters[position]? = some cluster → clusters[otherPosition]? = some other →
    position ≠ otherPosition → ∀ source ∈ cluster, ∀ target ∈ other,
      graph.Edge source target → otherPosition < position

theorem sameItems_collectClusters (vertices : List Vertex) (graph : Digraph Vertex) :
    SameItems (collectClusters vertices graph).flatten vertices.eraseDups := by
  apply sameItems_of_contains (distinct_flatten_collectClusters vertices graph)
    (distinct_eraseDups vertices)
  intro vertex
  rw [contains_eraseDups, contains_flatten_collectClusters]

theorem forwardPartition_collectClusters (vertices : List Vertex) (graph : Digraph Vertex) :
    ForwardPartition vertices graph (collectClusters vertices graph) := by
  constructor
  · exact sameItems_collectClusters vertices graph
  · intro textual
    apply (sameItems_collectClusters vertices graph).perm
    intro vertex member other equal
    exact Vertex.eq_of_beq_textual (textual vertex (mem_of_mem_eraseDups member)) equal
  · intro position cluster isAt
    rcases exists_head?_eq_find? isAt with ⟨seed, isSeed, isFirst⟩
    refine ⟨seed, isSeed, ?_, ?_⟩
    · rw [find?_eraseDups] at isFirst
      · exact isFirst
      · intro left right equal
        rw [List.contains_congr equal]
    · intro vertex
      rw [← induced_congr graph (contains_eraseDups vertices)]
      exact contains_cluster_iff isAt isSeed
  · intro position otherPosition cluster other isAt otherAt different source isSource target
      isTarget
    exact lt_of_edge isAt otherAt different.symm isSource isTarget

/-- Any vertices of any graph are divided by forward reach, and no vertex is deleted that is not
there. -/
theorem clusters_partition_by_forward_reach (vertices : List Vertex) (graph : Digraph Vertex) :
    ∃ clusters, collectClusters? vertices graph = some clusters ∧
      clusters = collectClusters vertices graph ∧ ForwardPartition vertices graph clusters :=
  ⟨_, collectClusters?_eq vertices graph, rfl, forwardPartition_collectClusters vertices graph⟩

/-- A seed leads to itself and to two more vertices, one of which came first as a seed. -/
example :
    collectClusters (V := Vertex) [.component "c", .component "a", .component "b", .component "c"]
        (Table.ofList [(.component "a", [.component "b", .component "c", .component "a"])]) =
      [[.component "c"], [.component "a", .component "b"]] := by
  decide +kernel

end Digraph

/-! ## Clusters of a call graph -/

/-- The component whose function a vertex is. -/
def Vertex.owner? (vertex : Vertex) : Option Text := vertex.function?.map Prod.fst

theorem Vertex.owner?_eq_none_iff {vertex : Vertex} :
    vertex.owner? = none ↔ ∃ id, vertex = .component id := by
  cases vertex <;> simp [owner?, function?]

theorem Vertex.owner?_eq_some_iff {vertex : Vertex} {owner : Text} :
    vertex.owner? = some owner ↔ ∃ name, vertex = .function owner name := by
  cases vertex <;> simp [owner?, function?]

theorem Vertex.owner?_congr {left right : Vertex} (equal : (left == right) = true) :
    left.owner? = right.owner? := by
  cases left <;> cases right <;> simp_all [owner?, function?]

namespace CallGraph

variable {graph : Digraph Vertex} {imports : Digraph Text}

theorem Layered.owner?_eq_of_edge (layered : Layered graph imports) {source target : Vertex}
    (edge : graph.Edge source target) : target.owner? = source.owner? := by
  cases layered.edge_cases edge with
  | inl imported =>
      rcases imported with ⟨sourceId, targetId, rfl, rfl, -⟩
      rfl
  | inr called =>
      rcases called with ⟨owner, caller, callee, rfl, rfl⟩
      rfl

/-- Paths stay among the components or among the functions of one component. -/
theorem Layered.owner?_eq_of_leads (layered : Layered graph imports) {pool : List Vertex}
    {source target : Vertex} (leads : (graph.induced pool).Leads source target) :
    target.owner? = source.owner? := by
  apply leads.induct fun vertex => vertex.owner? = source.owner?
  · intro left right equal same
    rw [← Vertex.owner?_congr equal]
    exact same
  · intro left right edge same
    rw [layered.owner?_eq_of_edge (Digraph.edge_induced_iff.1 edge).2.2]
    exact same
  · rfl

/-- All members of a cluster have the owner of its seed. -/
theorem Layered.exists_owner? (layered : Layered graph imports) {vertices cluster : List Vertex}
    (isCluster : cluster ∈ Digraph.collectClusters vertices graph) :
    ∃ owner, ∀ vertex ∈ cluster, vertex.owner? = owner := by
  rcases List.mem_iff_getElem?.1 isCluster with ⟨position, isAt⟩
  rcases Digraph.exists_head?_eq_find? isAt with ⟨seed, isSeed, -⟩
  refine ⟨seed.owner?, ?_⟩
  intro vertex isMember
  apply layered.owner?_eq_of_leads
  exact (Digraph.leads_of_contains_cluster isAt isSeed (List.elem_eq_true_of_mem isMember)).2

/-- The members of a cluster are components, or they are functions of one component. -/
theorem Layered.cluster_cases (layered : Layered graph imports) {vertices cluster : List Vertex}
    (isCluster : cluster ∈ Digraph.collectClusters vertices graph) :
    (∀ vertex ∈ cluster, ∃ id, vertex = .component id) ∨
      ∃ owner, ∀ vertex ∈ cluster, ∃ name, vertex = .function owner name := by
  rcases layered.exists_owner? isCluster with ⟨owner, allOwned⟩
  cases owner with
  | none =>
      left
      intro vertex isMember
      exact Vertex.owner?_eq_none_iff.1 (allOwned vertex isMember)
  | some owner =>
      refine .inr ⟨owner, ?_⟩
      intro vertex isMember
      exact Vertex.owner?_eq_some_iff.1 (allOwned vertex isMember)

end CallGraph

namespace ZombieReport

theorem functions_describe {members : List Vertex}
    (onlyComponents : ∀ vertex ∈ members, ∃ id, vertex = .component id) (id : Text)
    (graph : Digraph Vertex) (catalog : Catalog) :
    (ZombieCluster.describe id members graph catalog).functions = ∅ := by
  have noFunction : members.filterMap Vertex.function? = [] := by
    rw [List.filterMap_eq_nil_iff]
    intro vertex isMember
    rcases onlyComponents vertex isMember with ⟨componentId, rfl⟩
    rfl
  rw [ZombieCluster.describe, ZombieCluster.functionsOf, noFunction, List.foldl_nil]

theorem components_describe {members : List Vertex} {owner : Text}
    (onlyFunctions : ∀ vertex ∈ members, ∃ name, vertex = .function owner name) (id : Text)
    (graph : Digraph Vertex) (catalog : Catalog) :
    (ZombieCluster.describe id members graph catalog).components = [] := by
  have noComponent : members.filterMap Vertex.component? = [] := by
    rw [List.filterMap_eq_nil_iff]
    intro vertex isMember
    rcases onlyFunctions vertex isMember with ⟨name, rfl⟩
    rfl
  rw [ZombieCluster.describe, noComponent, List.map_nil]

theorem exists_members_of_mem_describeFrom {catalog : Catalog} {graph : Digraph Vertex}
    {start : Nat} {clusters : List (List Vertex)} {described : ZombieCluster}
    (isDescribed : described ∈ describeFrom catalog graph start clusters) :
    ∃ id, ∃ members ∈ clusters, described = .describe id members graph catalog := by
  rcases List.mem_iff_getElem?.1 isDescribed with ⟨index, isAt⟩
  rw [getElem?_describeFrom, Option.map_eq_some_iff] at isAt
  rcases isAt with ⟨members, isMembers, rfl⟩
  exact ⟨_, members, List.mem_of_getElem? isMembers, rfl⟩

/-- An edge of a call graph joins two different components or two functions of one component. So
the members of a zombie cluster are components, or they are functions of one component, and no
description has both components and functions. -/
theorem layers_never_mix {components : List Component} {catalog : Catalog}
    {graph : Digraph Vertex} (built : CallGraph.ofComponents components catalog = .ok graph) :
    (∀ source target, graph.Edge source target →
      (∃ sourceId targetId, source = .component sourceId ∧ target = .component targetId ∧
        targetId ≠ sourceId) ∨
      ∃ owner caller callee, source = .function owner caller ∧
        target = .function owner callee) ∧
    (∀ cluster ∈ zombieClusters graph,
      (∀ vertex ∈ cluster, ∃ id, vertex = .component id) ∨
      ∃ owner, ∀ vertex ∈ cluster, ∃ name, vertex = .function owner name) ∧
    ∀ settings, ∃ report, ofComponents components catalog settings = .ok report ∧
      ∀ described ∈ report.clusters, described.components = [] ∨ described.functions = ∅ := by
  have layered := CallGraph.ofComponents_layered built
  refine ⟨?_, fun _ isCluster => layered.cluster_cases isCluster, ?_⟩
  · intro source target edge
    cases layered.edge_cases edge with
    | inl imported =>
        rcases imported with ⟨sourceId, targetId, isSource, isTarget, imported⟩
        rw [Digraph.edge_iff_mem, DependencyGraph.mem_targets_iff] at imported
        exact .inl ⟨sourceId, targetId, isSource, isTarget, imported.1⟩
    | inr called => exact .inr called
  · intro settings
    refine ⟨_, ofComponents_eq_ok built settings, ?_⟩
    intro described isDescribed
    rcases exists_members_of_mem_describeFrom isDescribed with ⟨id, members, isCluster, rfl⟩
    cases layered.cluster_cases isCluster with
    | inl onlyComponents => exact .inr (functions_describe onlyComponents id graph catalog)
    | inr ofOneOwner =>
        rcases ofOneOwner with ⟨owner, onlyFunctions⟩
        exact .inl (components_describe onlyFunctions id graph catalog)

/-- The rivals have a cluster of either kind. -/
theorem rivals_never_mix :
    CallGraph.ofComponents rivals rivalCatalog = .ok rivalGraph ∧
    zombieClusters rivalGraph =
      [[.component "a#ping", .component "b#pong", .component "c#net"],
       [.function "a#ping" (.text "serve"), .function "a#ping" (.text "reply")]] ∧
    rivalGraph.Edge (.component "b#pong") (.component "c#net") ∧
    (∀ vertex, rivalGraph.Edge (.component "b#pong") vertex → ∃ id, vertex = .component id) ∧
    ∃ report, ofComponents rivals rivalCatalog {} = .ok report ∧
      ∀ described ∈ report.clusters, described.components = [] ∨ described.functions = ∅ := by
  rcases layers_never_mix rivals_built with ⟨edges, -, reports⟩
  refine ⟨rivals_built, by decide +kernel, ?_, ?_, reports {}⟩
  · rw [Digraph.Edge]
    decide +kernel
  · intro vertex edge
    cases edges _ _ edge with
    | inl imported =>
        rcases imported with ⟨sourceId, targetId, -, isTarget, -⟩
        exact ⟨targetId, isTarget⟩
    | inr called =>
        rcases called with ⟨owner, caller, callee, isSource, -⟩
        cases isSource

end ZombieReport

end ImportAtlas
