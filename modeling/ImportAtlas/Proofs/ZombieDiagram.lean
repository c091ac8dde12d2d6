import ImportAtlas.Proofs.Diagram.Layout
import ImportAtlas.Proofs.ZombieClusters

/-!
# The diagram of zombie clusters

A cluster is drawn as a tree: its own node, below it a node for each component that occurs among
its members, and below those the functions among its members. The diagram is the forest of all
clusters, and its edges lead from parents to children. A component may occur only as the owner of
functions, when it is in another cluster or in none. Then a placeholder is drawn for it, which is
told from its own node by the cluster.
-/

namespace ImportAtlas.ZombieReport

open ImportAtlas.Digraph

/-! ## What is to be drawn -/

/-- The place of a node in a forest. -/
structure Outline where
  id : Text
  kind : Option Diagram.NodeKind
  parent : Option Text
  deriving DecidableEq

def outline (node : Diagram.Node) : Outline := ⟨node.id, node.kind, node.parent⟩

/-- The components that occur among vertices, as such or as owners of functions, each once. -/
def occurring (members : List Vertex) : List Text :=
  (members.filterMap Vertex.component? ++
    (members.filterMap Vertex.function?).map Prod.fst).eraseDups

/-- The node of a component in a cluster: its own if it is a member, else a placeholder. -/
def componentNodeId (clusterId : Text) (members : List Vertex) (id : Text) : Text :=
  if members.contains (.component id) then id else clusterId ++ "/" ++ id

/-- A cluster as a tree, level by level. -/
def tree (clusterId : Text) (members : List Vertex) : List Outline :=
  ⟨clusterId, some .cluster, none⟩ ::
    (occurring members).map (fun id =>
      ⟨componentNodeId clusterId members id, some .zombie, some clusterId⟩) ++
    (members.filterMap Vertex.function?).map fun (owner, name) =>
      ⟨functionId owner name, some .function, some (componentNodeId clusterId members owner)⟩

section Occurring

variable {members : List Vertex} {id : Text}

theorem mem_functions_iff {function : Text × Atom} :
    function ∈ members.filterMap Vertex.function? ↔
      .function function.1 function.2 ∈ members := by
  rw [List.mem_filterMap]
  constructor
  · rintro ⟨vertex, member, isFunction⟩
    cases vertex with
    | component other => cases isFunction
    | function owner name =>
        cases isFunction
        exact member
  · intro member
    exact ⟨_, member, rfl⟩

theorem mem_occurring_iff :
    id ∈ occurring members ↔
      .component id ∈ members ∨ ∃ name, .function id name ∈ members := by
  rw [occurring, List.mem_eraseDups, List.mem_append, mem_components_iff, List.mem_map]
  constructor
  · rintro (member | ⟨⟨owner, name⟩, isFunction, rfl⟩)
    · exact .inl member
    · exact .inr ⟨name, mem_functions_iff.1 isFunction⟩
  · rintro (member | ⟨name, member⟩)
    · exact .inl member
    · exact .inr ⟨(id, name), mem_functions_iff.2 member, rfl⟩

theorem nodup_occurring (members : List Vertex) : (occurring members).Nodup :=
  (distinct_eraseDups _).nodup

end Occurring

/-! ## Nodes -/

section Cluster

variable (catalog : Catalog) (clusterId : Text) (members : List Vertex)

/-- The nodes of the components that are members. -/
def ownNodes : Table Text Text :=
  Table.ofList ((members.filterMap Vertex.component?).map fun id => (id, id))

theorem entries_ownNodes :
    (ownNodes members).entries =
      (members.filterMap Vertex.component?).eraseDups.map fun id => (id, id) :=
  Table.entries_ofList_map id _

theorem contains_ownNodes (id : Text) :
    (ownNodes members).contains id = (members.filterMap Vertex.component?).contains id := by
  rw [Table.contains_eq_contains_keys, Table.keys, entries_ownNodes, ← contains_eraseDups]
  simp [Function.comp_def]

/-- Components that are members come first, under their own identifiers. Owners that have no node
by then get a placeholder when their first function comes up. -/
theorem entries_parentNodes :
    (parentNodes clusterId members).entries =
      (occurring members).map fun id => (id, componentNodeId clusterId members id) := by
  have written : (parentNodes clusterId members).entries = (ownNodes members).entries ++ _ :=
    Table.entries_foldl_insert_new Prod.fst (fun function => clusterId ++ "/" ++ function.1)
      (members.filterMap Vertex.function?) (ownNodes members)
  have placeholders : ∀ functions : List (Text × Atom),
      (firstsBy Prod.fst functions).map (fun function =>
        (function.1, clusterId ++ "/" ++ function.1)) =
      (functions.map Prod.fst).eraseDups.map fun owner => (owner, clusterId ++ "/" ++ owner) := by
    intro functions
    rw [← map_firstsBy, List.map_map]
    rfl
  have newOwners : ((members.filterMap Vertex.function?).filter fun function =>
        !(ownNodes members).contains function.1).map Prod.fst =
      ((members.filterMap Vertex.function?).map Prod.fst).removeAll
        (members.filterMap Vertex.component?) := by
    rw [List.removeAll, List.filter_map]
    simp only [contains_ownNodes]
    rfl
  rw [written, entries_ownNodes, placeholders, newOwners, occurring, List.eraseDups_append,
    List.map_append]
  congr 1
  · apply List.map_congr_left
    intro id member
    rw [List.mem_eraseDups, mem_components_iff, component_mem_iff] at member
    rw [componentNodeId, if_pos member]
  · apply List.map_congr_left
    intro id member
    rw [List.mem_eraseDups, List.removeAll, List.mem_filter] at member
    have notMember : ¬ members.contains (.component id) = true := by
      rw [← component_mem_iff, ← mem_components_iff]
      simpa using member.2
    rw [componentNodeId, if_neg notMember]

theorem get?_parentNodes {owner : Text} (occurs : owner ∈ occurring members) :
    (parentNodes clusterId members).get? owner =
      some (componentNodeId clusterId members owner) := by
  have isEntry : (owner, componentNodeId clusterId members owner) ∈
      (parentNodes clusterId members).entries := by
    rw [entries_parentNodes]
    exact List.mem_map_of_mem occurs
  exact Table.get?_of_mem isEntry (BEq.refl owner)

theorem size_parentNodes : (parentNodes clusterId members).size = (occurring members).length := by
  rw [Table.size, entries_parentNodes, List.length_map]

/-- Slots say where a function is drawn, not below which node. -/
theorem outline_functionNodes (parents : Table Text Text) (slots : Table Text Nat)
    (functions : List (Text × Atom)) :
    (functionNodes catalog parents clusterId slots functions).map outline =
      functions.map fun (owner, name) =>
        ⟨functionId owner name, some .function,
          some (parentOf parents clusterId owner)⟩ := by
  induction functions generalizing slots with
  | nil => rfl
  | cons function functions ih =>
      rw [functionNodes, List.map_cons, ih]
      rfl

theorem outline_componentNodes :
    (List.zipWith (componentNode catalog clusterId) (parentNodes clusterId members).entries
      (Diagram.wholeGrid (parentNodes clusterId members).size componentOrigin.1 componentOrigin.2
        componentSpacing)).map outline =
      (occurring members).map fun id =>
        ⟨componentNodeId clusterId members id, some .zombie, some clusterId⟩ := by
  have enough := Diagram.length_wholeGrid (parentNodes clusterId members).entries.length
    componentOrigin.1 componentOrigin.2 componentSpacing
  rw [Table.size, Diagram.map_zipWith_placed outline
    (fun entry : Text × Text => ⟨entry.2, some .zombie, some clusterId⟩) (fun _ _ => rfl) enough,
    entries_parentNodes, List.map_map]
  rfl

theorem outline_drawCluster (index : Int) (y : Number) :
    (drawCluster clusterId index members y catalog).nodes.map outline = tree clusterId members := by
  have functions : (functionNodes catalog (parentNodes clusterId members) clusterId ∅
      (members.filterMap Vertex.function?)).map outline =
      (members.filterMap Vertex.function?).map fun (owner, name) =>
        ⟨functionId owner name, some .function,
          some (componentNodeId clusterId members owner)⟩ := by
    rw [outline_functionNodes]
    apply List.map_congr_left
    rintro ⟨owner, name⟩ isFunction
    have occurs : owner ∈ occurring members :=
      mem_occurring_iff.2 (.inr ⟨name, mem_functions_iff.1 isFunction⟩)
    simp [parentOf, get?_parentNodes clusterId members occurs]
  rw [drawCluster, tree, ← outline_componentNodes catalog, ← functions, List.map_append,
    List.map_cons]
  rfl

end Cluster

/-- Clusters are drawn one after the other, each as its tree. -/
theorem outline_drawFrom (catalog : Catalog) (spacing : Number) (start : Nat)
    (clusters : List (List Vertex)) :
    (drawFrom catalog spacing start clusters).nodes.map outline =
      (clusters.zipIdx start).flatMap fun cluster => tree (clusterId cluster.2) cluster.1 := by
  induction clusters generalizing start with
  | nil => rfl
  | cons members clusters ih =>
      rw [List.zipIdx_cons, List.flatMap_cons, ← ih, ← outline_drawCluster catalog,
        ← List.map_append]
      rfl

/-! ## Edges -/

/-- What is drawn below another node. -/
def Outline.IsChild (outline : Outline) : Prop :=
  outline.kind ≠ some .cluster ∧ outline.parent ≠ none

/-- There is an edge to every node but the clusters, in the order of the nodes, and it leads from
the parent of the node. -/
def Linked (diagram : Diagram) : Prop :=
  diagram.edges.map (fun edge => (some edge.source, edge.target)) =
    (diagram.nodes.filter fun node => node.kind ≠ some .cluster).map fun node =>
      (node.parent, node.id)

theorem Linked.append {left right : Diagram} (leftLinked : Linked left)
    (rightLinked : Linked right) : Linked (left ++ right) := by
  change (left.edges ++ right.edges).map _ = ((left.nodes ++ right.nodes).filter _).map _
  rw [List.map_append, List.filter_append, List.map_append, leftLinked, rightLinked]

/-- The edge from the parent of a node to the node. -/
def parentEdge (kind : Option Diagram.EdgeKind) (node : Diagram.Node) : Diagram.Edge where
  source := node.parent.getD ""
  target := node.id
  kind := kind

/-- The edge to a component leads from the parent of its node. -/
theorem componentEdges_eq (catalog : Catalog) (clusterId : Text) (parents : List (Text × Text))
    (positions : List Diagram.Position) :
    List.zipWith (fun parent _ => componentEdge clusterId parent) parents positions =
      (List.zipWith (componentNode catalog clusterId) parents positions).map
        (parentEdge none) := by
  rw [List.map_zipWith]
  rfl

/-- The edge to a function leads from the parent of its node. -/
theorem functionEdges_eq (catalog : Catalog) (clusterId : Text) (parents : Table Text Text)
    (slots : Table Text Nat) (functions : List (Text × Atom)) :
    functions.map (fun (owner, name) =>
        functionEdge (parentOf parents clusterId owner) owner name) =
      (functionNodes catalog parents clusterId slots functions).map
        (parentEdge (some .exporting)) := by
  induction functions generalizing slots with
  | nil => rfl
  | cons function functions ih =>
      rw [functionNodes, List.map_cons, List.map_cons, ← ih]
      rfl

theorem linked_parentEdges (kind : Option Diagram.EdgeKind) {nodes : List Diagram.Node}
    {outlines : List Outline} (drawn : nodes.map outline = outlines)
    (children : ∀ outline ∈ outlines, outline.IsChild) :
    Linked ⟨nodes, nodes.map (parentEdge kind)⟩ := by
  have isChild : ∀ node ∈ nodes, (outline node).IsChild := by
    intro node member
    apply children
    rw [← drawn]
    exact List.mem_map_of_mem member
  have allKept : (nodes.filter fun node => node.kind ≠ some .cluster) = nodes := by
    rw [List.filter_eq_self]
    intro node member
    exact decide_eq_true (isChild node member).1
  rw [Linked, allKept, List.map_map]
  apply List.map_congr_left
  intro node member
  rcases Option.ne_none_iff_exists'.1 (isChild node member).2 with ⟨parent, isParent⟩
  change node.parent = some parent at isParent
  simp [parentEdge, isParent]

theorem linked_drawCluster (catalog : Catalog) (clusterId : Text) (members : List Vertex)
    (index : Int) (y : Number) : Linked (drawCluster clusterId index members y catalog) := by
  have root : Linked ⟨[clusterNode clusterId index y], []⟩ := rfl
  have components := linked_parentEdges none (outline_componentNodes catalog clusterId members)
  have functions := linked_parentEdges (some .exporting)
    (outline_functionNodes catalog clusterId (parentNodes clusterId members) ∅
      (members.filterMap Vertex.function?))
  rw [← componentEdges_eq] at components
  rw [← functionEdges_eq] at functions
  refine (root.append (components ?_)).append (functions ?_)
  · rw [List.forall_mem_map]
    intro id _
    simp [Outline.IsChild]
  · rw [List.forall_mem_map]
    intro function _
    simp [Outline.IsChild]

theorem linked_drawFrom (catalog : Catalog) (spacing : Number) (start : Nat)
    (clusters : List (List Vertex)) : Linked (drawFrom catalog spacing start clusters) := by
  induction clusters generalizing start with
  | nil => rfl
  | cons members clusters ih => exact (linked_drawCluster _ _ _ _ _).append (ih (start + 1))

/-! ## The forest -/

/-- The diagram of a report is the forest of its clusters, which hold each stranded vertex once.
Every component that occurs in a cluster has one node there, the look-up of a function's parent
finds it, and the grid has a place for it. -/
theorem diagram_is_forest {components : List Component} {catalog : Catalog}
    {graph : Digraph Vertex} (built : CallGraph.ofComponents components catalog = .ok graph)
    (settings : Settings) :
    ∃ report, ofComponents components catalog settings = .ok report ∧
      report.diagram.nodes.map outline =
        (zombieClusters graph).zipIdx.flatMap (fun cluster =>
          tree (clusterId cluster.2) cluster.1) ∧
      Linked report.diagram ∧
      Distinct (zombieClusters graph).flatten ∧
      (∀ vertex, (zombieClusters graph).flatten.contains vertex = true ↔ graph.Stranded vertex) ∧
      ∀ members ∈ zombieClusters graph,
        (occurring members).Nodup ∧
        (∀ id, id ∈ occurring members ↔
          .component id ∈ members ∨ ∃ name, .function id name ∈ members) ∧
        (∀ clusterId, ∀ owner ∈ occurring members,
          (parentNodes clusterId members).get? owner =
            some (componentNodeId clusterId members owner)) ∧
        ∀ clusterId x y spacing,
          (Diagram.wholeGrid (parentNodes clusterId members).size x y spacing).length =
            (occurring members).length := by
  refine ⟨_, ofComponents_eq_ok built settings, outline_drawFrom _ _ _ _, linked_drawFrom _ _ _ _,
    distinct_flatten_collectClusters _ graph, fun _ => contains_flatten_zombieClusters, ?_⟩
  intro members _
  refine ⟨nodup_occurring members, fun id => mem_occurring_iff, ?_, ?_⟩
  · intro clusterId owner occurs
    exact get?_parentNodes clusterId members occurs
  · intro clusterId x y spacing
    rw [Diagram.length_wholeGrid, size_parentNodes]

/-- The functions of a component are in a cluster of their own, below a placeholder. -/
theorem rivals_are_forest :
    CallGraph.ofComponents rivals rivalCatalog = .ok rivalGraph ∧
    ∃ report, ofComponents rivals rivalCatalog {} = .ok report ∧ Linked report.diagram ∧
      report.diagram.nodes.map outline =
        [⟨"cluster-0", some .cluster, none⟩,
         ⟨"a#ping", some .zombie, some "cluster-0"⟩,
         ⟨"b#pong", some .zombie, some "cluster-0"⟩,
         ⟨"c#net", some .zombie, some "cluster-0"⟩,
         ⟨"cluster-1", some .cluster, none⟩,
         ⟨"cluster-1/a#ping", some .zombie, some "cluster-1"⟩,
         ⟨"a#ping.serve", some .function, some "cluster-1/a#ping"⟩,
         ⟨"a#ping.reply", some .function, some "cluster-1/a#ping"⟩] := by
  rcases diagram_is_forest rivals_built {} with ⟨report, made, drawn, linked, -⟩
  refine ⟨rivals_built, report, made, linked, ?_⟩
  rw [drawn]
  decide +kernel

end ImportAtlas.ZombieReport
