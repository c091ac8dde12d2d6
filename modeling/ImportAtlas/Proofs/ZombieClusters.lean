import ImportAtlas.Proofs.CallGraph.Layers
import ImportAtlas.Proofs.DependencyGraph
import ImportAtlas.Proofs.Digraph.Cluster
import ImportAtlas.Report.Cycles
import ImportAtlas.Report.Zombies
import Mathlib.Data.Set.Card

/-!
# Zombie clusters

The zombies of a call graph are its stranded vertices, and the clusters share them out. So the
counts of a report are counts of stranded components, and where there are zombies among the
components there are cycles of imports that make them so.
-/

namespace ImportAtlas.ZombieReport

open ImportAtlas.Digraph

/-! ## The report on a graph whose vertices are its keys -/

/-- Vertices that no entry point leads to, in the order of the graph. -/
def zombies (graph : Digraph Vertex) : List Vertex := unreachedOf graph.keys graph

/-- The clusters of the vertices that no entry point leads to. -/
def zombieClusters (graph : Digraph Vertex) : List (List Vertex) :=
  collectClusters (zombies graph) graph

/-- The report on a call graph, with its keys for vertices. -/
def ofGraph (graph : Digraph Vertex) (catalog : Catalog) (settings : Settings) : ZombieReport :=
  ofVertices graph.keys graph catalog settings

theorem clusters_ofGraph (graph : Digraph Vertex) (catalog : Catalog) (settings : Settings) :
    (ofGraph graph catalog settings).clusters =
      describeFrom catalog graph 0 (zombieClusters graph) := rfl

/-- The vertices that are listed while a call graph is built are its keys. -/
theorem ofComponents_eq_ok {components : List Component} {catalog : Catalog}
    {graph : Digraph Vertex} (built : CallGraph.ofComponents components catalog = .ok graph)
    (settings : Settings) :
    ofComponents components catalog settings = .ok (ofGraph graph catalog settings) := by
  obtain ⟨vertices, isBuilt⟩ := CallGraph.exists_build_of_ofComponents built
  have inStep : vertices.keys = graph.keys := CallGraph.build_inStep isBuilt
  rw [ofComponents, isBuilt, ofGraph, ← inStep]
  rfl

/-! ## Clusters share out the stranded vertices -/

theorem contains_zombies {graph : Digraph Vertex} {vertex : Vertex} :
    (zombies graph).contains vertex = true ↔ graph.Stranded vertex := by
  rw [zombies, unreachedOf, contains_filter, Bool.and_eq_true, Bool.not_eq_true', stranded_iff]
  intro left right equal
  rw [List.contains_congr equal]

theorem contains_flatten_zombieClusters {graph : Digraph Vertex} {vertex : Vertex} :
    (zombieClusters graph).flatten.contains vertex = true ↔ graph.Stranded vertex := by
  unfold zombieClusters
  rw [contains_flatten_collectClusters, contains_zombies]

/-- A component vertex equals no other, so it stands in a list if an equal one does. -/
theorem component_mem_iff {vertices : List Vertex} {id : Text} :
    Vertex.component id ∈ vertices ↔ vertices.contains (.component id) = true := by
  constructor
  · exact List.elem_eq_true_of_mem
  · intro known
    obtain ⟨vertex, member, equal⟩ := List.contains_iff_exists_mem_beq.1 known
    cases vertex with
    | component other =>
        obtain rfl : id = other := eq_of_beq equal
        exact member
    | function owner name => cases equal

theorem mem_components_iff {vertices : List Vertex} {id : Text} :
    id ∈ vertices.filterMap Vertex.component? ↔ .component id ∈ vertices := by
  rw [List.mem_filterMap]
  constructor
  · rintro ⟨vertex, member, isId⟩
    cases vertex with
    | component other =>
        cases isId
        exact member
    | function owner name => cases isId
  · intro member
    exact ⟨_, member, rfl⟩

/-- The components in zombie clusters are the stranded ones. -/
theorem exists_zombieCluster_iff {graph : Digraph Vertex} {id : Text} :
    (∃ cluster ∈ zombieClusters graph, .component id ∈ cluster) ↔
      graph.Stranded (.component id) := by
  rw [← contains_flatten_zombieClusters, ← component_mem_iff, List.mem_flatten]

/-! ## Counts -/

/-- The components in zombie clusters, cluster by cluster. -/
def zombieIds (graph : Digraph Vertex) : List Text :=
  (zombieClusters graph).flatten.filterMap Vertex.component?

theorem mem_zombieIds {graph : Digraph Vertex} {id : Text} :
    id ∈ zombieIds graph ↔ graph.Stranded (.component id) := by
  rw [← contains_flatten_zombieClusters, ← component_mem_iff, zombieIds, mem_components_iff]

theorem nodup_zombieIds (graph : Digraph Vertex) : (zombieIds graph).Nodup := by
  apply Distinct.nodup_filterMap _ (distinct_flatten_collectClusters (zombies graph) graph)
  intro left right id isLeft isRight
  cases left <;> cases right <;> cases isLeft <;> cases isRight
  exact BEq.refl _

/-- What counts the components of each cluster counts them in all descriptions. -/
theorem map_describeFrom {catalog : Catalog} {graph : Digraph Vertex}
    {measure : ZombieCluster → Nat}
    (counts : ∀ id members, measure (.describe id members graph catalog) =
      (members.filterMap Vertex.component?).length) (start : Nat) (clusters : List (List Vertex)) :
    (describeFrom catalog graph start clusters).map measure =
      clusters.map fun members => (members.filterMap Vertex.component?).length := by
  induction clusters generalizing start with
  | nil => rfl
  | cons members clusters ih =>
      unfold describeFrom
      rw [List.map_cons, List.map_cons, ih, counts]

section Counts

variable (graph : Digraph Vertex) (catalog : Catalog) (settings : Settings)

/-- A report counts components by the sizes of its clusters. -/
theorem sizes_ofGraph :
    ((ofGraph graph catalog settings).clusters.map fun cluster => cluster.components.length) =
      (ofGraph graph catalog settings).clusters.map ZombieCluster.size := by
  rw [clusters_ofGraph, map_describeFrom (fun _ _ => List.length_map _),
    map_describeFrom (fun _ _ => rfl)]

theorem sum_sizes_ofGraph :
    ((ofGraph graph catalog settings).clusters.map ZombieCluster.size).sum =
      (zombieIds graph).length := by
  rw [clusters_ofGraph, map_describeFrom (fun _ _ => rfl), zombieIds, List.filterMap_flatten,
    List.length_flatten, List.map_map]
  rfl

theorem components_ofGraph :
    (ofGraph graph catalog settings).stats.components = (zombieIds graph).length := by
  rw [← sum_sizes_ofGraph graph catalog settings, ← sizes_ofGraph, List.sum_eq_foldl]
  rfl

/-- The largest size is that of some cluster, or zero if there is no cluster. -/
theorem largest_ofGraph :
    (ofGraph graph catalog settings).stats.largest =
      ((ofGraph graph catalog settings).clusters.map ZombieCluster.size).max?.getD 0 := by
  rw [← sizes_ofGraph, ← Nat.zero_max (Option.getD _ 0), ← List.foldl_max]
  rfl

end Counts

/-- The identifiers of the components that are stranded in a call graph. -/
def strandedIds (components : List Component) (graph : Digraph Vertex) : Set Text :=
  { id | id ∈ components.map Component.id ∧ graph.Stranded (.component id) }

theorem ncard_strandedIds {components : List Component} {catalog : Catalog}
    {graph : Digraph Vertex} (built : CallGraph.ofComponents components catalog = .ok graph) :
    (strandedIds components graph).ncard = (zombieIds graph).length := by
  have layered := CallGraph.ofComponents_layered built
  have same : strandedIds components graph = ((zombieIds graph).toFinset : Set Text) := by
    ext id
    rw [List.coe_toFinset, Set.mem_ofPred_eq, mem_zombieIds]
    constructor
    · exact And.right
    · intro stranded
      have isKey := (layered.contains_keys_component id).1 stranded.known
      exact ⟨(DependencyGraph.mem_keys_ofComponents components catalog id).1 isKey, stranded⟩
  rw [same, Set.ncard_coe_finset, List.toFinset_card_of_nodup (nodup_zombieIds graph)]

/-- The clusters of a call graph share out its stranded vertices: each is in one place of one
cluster, and nothing else is in any. A report is made, it counts every stranded component once,
and its largest size is the size of its largest cluster. -/
theorem clusters_share_out_stranded {components : List Component} {catalog : Catalog}
    {graph : Digraph Vertex} (built : CallGraph.ofComponents components catalog = .ok graph)
    (settings : Settings) :
    Distinct (zombieClusters graph).flatten ∧
    (∀ vertex, (zombieClusters graph).flatten.contains vertex = true ↔ graph.Stranded vertex) ∧
    ∃ report, ofComponents components catalog settings = .ok report ∧
      report.stats.components = (strandedIds components graph).ncard ∧
      (report.clusters.map ZombieCluster.size).sum = (strandedIds components graph).ncard ∧
      (∀ cluster ∈ report.clusters, cluster.size ≤ report.stats.largest) ∧
      (report.clusters = [] ∧ report.stats.largest = 0 ∨
        ∃ cluster ∈ report.clusters, cluster.size = report.stats.largest) := by
  refine ⟨distinct_flatten_collectClusters _ graph, fun _ => contains_flatten_zombieClusters,
    _, ofComponents_eq_ok built settings, ?_, ?_, ?_⟩
  · rw [ncard_strandedIds built, components_ofGraph]
  · rw [ncard_strandedIds built, sum_sizes_ofGraph]
  · rw [largest_ofGraph]
    generalize (ofGraph graph catalog settings).clusters = clusters
    cases largest : (clusters.map ZombieCluster.size).max? with
    | none =>
        rw [List.max?_eq_none_iff, List.map_eq_nil_iff] at largest
        simp [largest]
    | some size =>
        obtain ⟨attained, bound⟩ := List.max?_eq_some_iff.1 largest
        refine ⟨fun cluster member => bound _ (List.mem_map_of_mem member), .inr ?_⟩
        exact List.mem_map.1 attained

/-- Two components that import each other, with functions that call each other in one of them,
and a third component that only they lead to. -/
def rivals : List Component :=
  [{ name := .text "ping", path := .text "a", imports := [.text "./pong"],
     functions := some [.text "serve", .text "reply"],
     calls := some (Table.ofList [("serve", [.text "reply"]), ("reply", [.text "serve"])]) },
   { name := .text "pong", path := .text "b", imports := [.text "./ping", .text "./net"] },
   { name := .text "net", path := .text "c" }]

/-- A catalog that knows the rivals by their names only. -/
def rivalCatalog : Catalog where
  byImport := Table.ofList
    [(.text "ping", ["a#ping"]), (.text "pong", ["b#pong"]), (.text "net", ["c#net"])]

def rivalGraph : Digraph Vertex := Table.ofList
  [(.component "a#ping", [.component "b#pong"]),
   (.function "a#ping" (.text "serve"), [.function "a#ping" (.text "reply")]),
   (.function "a#ping" (.text "reply"), [.function "a#ping" (.text "serve")]),
   (.component "b#pong", [.component "a#ping", .component "c#net"]),
   (.component "c#net", [])]

theorem rivals_built : CallGraph.ofComponents rivals rivalCatalog = .ok rivalGraph := by
  decide +kernel

/-- All three rivals are stranded, and so are the two functions. -/
theorem rivals_share_out_stranded :
    CallGraph.ofComponents rivals rivalCatalog = .ok rivalGraph ∧
    Distinct (zombieClusters rivalGraph).flatten ∧
    rivalGraph.Stranded (.function "a#ping" (.text "serve")) ∧
    ∃ report, ofComponents rivals rivalCatalog {} = .ok report ∧ report.stats.components = 3 ∧
      (strandedIds rivals rivalGraph).ncard = 3 ∧
      (∀ cluster ∈ report.clusters, cluster.size ≤ report.stats.largest) := by
  obtain ⟨distinct, exactly, report, made, total, sizes, bound, -⟩ :=
    clusters_share_out_stranded rivals_built {}
  have three : (strandedIds rivals rivalGraph).ncard = 3 := by
    rw [ncard_strandedIds rivals_built]
    decide +kernel
  refine ⟨rivals_built, distinct, ?_, report, made, total.trans three, three, bound⟩
  exact (exactly _).1 (by decide +kernel)

/-! ## Import cycles make zombies -/

theorem findCycles_eq_nil_of_groups {imports : Digraph Text} {catalog : Catalog}
    {settings : Settings} {report : CycleReport}
    (reported : CycleReport.ofGraph imports catalog settings = .ok report)
    (noGroup : report.groups = []) : imports.findCycles = [] := by
  obtain ⟨positions, -, made⟩ := bind_eq_ok_iff.1 reported
  cases made
  cases cycles : imports.findCycles with
  | nil => rfl
  | cons cycle rest =>
      rw [cycles] at noGroup
      cases noGroup

/-- Every component in a zombie cluster is led to, along imports, by a reported import cycle whose
members are in zombie clusters themselves. If no cycle is reported, no component is in a zombie
cluster. -/
theorem zombies_follow_import_cycles {components : List Component} {catalog : Catalog}
    {graph : Digraph Vertex} (built : CallGraph.ofComponents components catalog = .ok graph) :
    (∀ id, (∃ cluster ∈ zombieClusters graph, .component id ∈ cluster) →
      ∃ cycle ∈ (DependencyGraph.ofComponents components catalog).findCycles,
        (∃ start ∈ cycle, (DependencyGraph.ofComponents components catalog).Leads start id) ∧
        ∀ member ∈ cycle, ∃ cluster ∈ zombieClusters graph, .component member ∈ cluster) ∧
    ∀ settings cycles,
      CycleReport.ofGraph (DependencyGraph.ofComponents components catalog) catalog settings =
        .ok cycles →
      cycles.groups = [] →
      (∀ cluster ∈ zombieClusters graph, ∀ id, .component id ∉ cluster) ∧
      ∃ zombies, ofComponents components catalog settings = .ok zombies ∧
        zombies.stats.components = 0 := by
  have layered := CallGraph.ofComponents_layered built
  constructor
  · intro id inCluster
    rw [exists_zombieCluster_iff] at inCluster
    obtain ⟨cycle, reported, onCycle⟩ := layered.exists_cycle inCluster
    refine ⟨cycle, reported, ?_, ?_⟩
    · obtain ⟨start, member⟩ :=
        List.exists_mem_of_ne_nil cycle (isCycle_of_mem_findCycles reported).2.nonempty
      exact ⟨start, member, (onCycle start member).1⟩
    · intro member isMember
      rw [exists_zombieCluster_iff]
      exact (onCycle member isMember).2
  · intro settings cycles reported noGroup
    have noCycle := findCycles_eq_nil_of_groups reported noGroup
    have noneStranded : ∀ id, ¬ graph.Stranded (.component id) := by
      intro id stranded
      obtain ⟨cycle, isReported, -⟩ := layered.exists_cycle stranded
      rw [noCycle] at isReported
      cases isReported
    refine ⟨?_, _, ofComponents_eq_ok built settings, ?_⟩
    · intro cluster isCluster id member
      exact noneStranded id (exists_zombieCluster_iff.1 ⟨cluster, isCluster, member⟩)
    · rw [components_ofGraph, List.length_eq_zero_iff, List.eq_nil_iff_forall_not_mem]
      intro id isZombie
      exact noneStranded id (mem_zombieIds.1 isZombie)

/-- A component that imports nothing is a zombie because two others import each other; without
one of the two there is no zombie left. -/
theorem rivals_follow_import_cycle :
    (CallGraph.ofComponents rivals rivalCatalog = .ok rivalGraph ∧
      ∃ cycle ∈ (DependencyGraph.ofComponents rivals rivalCatalog).findCycles,
        (∃ start ∈ cycle, (DependencyGraph.ofComponents rivals rivalCatalog).Leads start "c#net") ∧
        ∀ member ∈ cycle, ∃ cluster ∈ zombieClusters rivalGraph, .component member ∈ cluster) ∧
    ∃ zombies, ofComponents rivals.tail rivalCatalog {} = .ok zombies ∧
      zombies.stats.components = 0 := by
  have inCluster : ∃ cluster ∈ zombieClusters rivalGraph, .component "c#net" ∈ cluster := by
    rw [exists_zombieCluster_iff, ← contains_flatten_zombieClusters]
    decide +kernel
  refine ⟨⟨rivals_built, (zombies_follow_import_cycles rivals_built).1 _ inCluster⟩, ?_⟩
  have built : CallGraph.ofComponents rivals.tail rivalCatalog =
      .ok (Table.ofList [(.component "b#pong", [.component "a#ping", .component "c#net"]),
        (.component "c#net", [])]) := by
    decide +kernel
  have noCycle : (DependencyGraph.ofComponents rivals.tail rivalCatalog).findCycles = [] := by
    decide +kernel
  obtain ⟨report, reported, noGroup⟩ : ∃ report,
      CycleReport.ofGraph (DependencyGraph.ofComponents rivals.tail rivalCatalog) rivalCatalog {} =
        .ok report ∧ report.groups = [] := by
    unfold CycleReport.ofGraph
    rw [noCycle]
    exact ⟨_, rfl, rfl⟩
  exact ((zombies_follow_import_cycles built).2 {} report reported noGroup).2

/-! ## Import cycles stay together -/

/-- A cycle of stranded vertices lies in one zombie cluster. -/
theorem exists_zombieCluster_of_isCycle {graph : Digraph Vertex} {walk : List Vertex}
    (isCycle : graph.IsCycle walk) (stranded : ∀ vertex ∈ walk, graph.Stranded vertex) :
    ∃ cluster ∈ zombieClusters graph, ∀ vertex ∈ walk, cluster.contains vertex = true := by
  apply exists_cluster_of_isCycle isCycle
  intro vertex isVertex
  rw [contains_eraseDups, contains_zombies]
  exact stranded vertex isVertex

/-- The clusters of a report describe those of its graph, in their order. -/
theorem getElem?_describeFrom (catalog : Catalog) (graph : Digraph Vertex) (start : Nat)
    (clusters : List (List Vertex)) (index : Nat) :
    (describeFrom catalog graph start clusters)[index]? =
      clusters[index]?.map fun members =>
        .describe (clusterId (start + index : Nat)) members graph catalog := by
  induction clusters generalizing start index with
  | nil => simp [describeFrom]
  | cons members clusters ih =>
      cases index with
      | zero => simp [describeFrom]
      | succ index => simp [describeFrom, ih, Nat.add_right_comm, Nat.add_assoc]

/-- The members of a reported import cycle are all in the reach of the entry points, or they are
all in one zombie cluster, which the report describes. -/
theorem import_cycles_stay_together {components : List Component} {catalog : Catalog}
    {graph : Digraph Vertex} (built : CallGraph.ofComponents components catalog = .ok graph)
    {cycle : List Text}
    (reported : cycle ∈ (DependencyGraph.ofComponents components catalog).findCycles)
    (settings : Settings) :
    ∃ report, ofComponents components catalog settings = .ok report ∧
      ((∀ id ∈ cycle,
          (reach (entryPoints graph.keys graph) graph).contains (.component id) = true) ∨
        ∃ (index : Nat) (members : List Vertex), (zombieClusters graph)[index]? = some members ∧
          report.clusters[index]? = some (.describe (clusterId index) members graph catalog) ∧
          ∀ id ∈ cycle, .component id ∈ members) := by
  have layered := CallGraph.ofComponents_layered built
  have isCycle := (isCycle_of_mem_findCycles reported).2
  refine ⟨_, ofComponents_eq_ok built settings, ?_⟩
  by_cases touched : ∃ id ∈ cycle,
      (reach (entryPoints graph.keys graph) graph).contains (.component id) = true
  · left
    obtain ⟨first, isFirst, isReached⟩ := touched
    obtain ⟨entry, isEntry, leads⟩ := contains_reach_iff.1 isReached
    intro id isMember
    rw [contains_reach_iff]
    exact ⟨entry, isEntry, leads.trans (layered.leads_component (isCycle.leads isFirst isMember))⟩
  · right
    have callCycle : graph.IsCycle (cycle.map .component) :=
      isCycle.map layered.edge_component_iff.2
    have stranded : ∀ vertex ∈ cycle.map .component, graph.Stranded vertex := by
      intro vertex isVertex
      obtain ⟨next, follows⟩ := Follows.exists_of_mem isVertex
      obtain ⟨id, isMember, rfl⟩ := List.mem_map.1 isVertex
      rw [stranded_iff, Bool.eq_false_iff]
      exact ⟨(callCycle.edge follows).source_known,
        fun isReached => touched ⟨id, isMember, isReached⟩⟩
    obtain ⟨members, isCluster, holdsAll⟩ := exists_zombieCluster_of_isCycle callCycle stranded
    obtain ⟨index, isAt⟩ := List.mem_iff_getElem?.1 isCluster
    refine ⟨index, members, isAt, ?_, ?_⟩
    · simp [clusters_ofGraph, getElem?_describeFrom, isAt]
    · intro id isMember
      rw [component_mem_iff]
      exact holdsAll _ (List.mem_map_of_mem isMember)

/-- The cycle of the two rivals lies in the one cluster that holds them. -/
theorem rivals_stay_together :
    (["a#ping", "b#pong"] : List Text) ∈
      (DependencyGraph.ofComponents rivals rivalCatalog).findCycles ∧
    ∃ report, ofComponents rivals rivalCatalog {} = .ok report ∧
      ∃ (index : Nat) (members : List Vertex), (zombieClusters rivalGraph)[index]? = some members ∧
        report.clusters[index]? =
          some (.describe (clusterId index) members rivalGraph rivalCatalog) ∧
        .component "a#ping" ∈ members ∧ .component "b#pong" ∈ members := by
  have reported : (["a#ping", "b#pong"] : List Text) ∈
      (DependencyGraph.ofComponents rivals rivalCatalog).findCycles := by
    decide +kernel
  obtain ⟨report, made, reached | together⟩ :=
    import_cycles_stay_together rivals_built reported {}
  · have missed : (reach (entryPoints rivalGraph.keys rivalGraph) rivalGraph).contains
        (.component "a#ping") = false := by
      decide +kernel
    rw [reached "a#ping" (by simp)] at missed
    cases missed
  · obtain ⟨index, members, isAt, described, holdsAll⟩ := together
    exact ⟨reported, report, made, index, members, isAt, described, holdsAll _ (by simp),
      holdsAll _ (by simp)⟩

end ImportAtlas.ZombieReport
