import ImportAtlas.CallGraph
import ImportAtlas.Diagram.Layout
import ImportAtlas.Digraph.Cluster
import ImportAtlas.Digraph.Reach
import ImportAtlas.Settings

/-!
# The report on zombie clusters

A vertex of the call graph that no entry point leads to is a zombie. Zombies are split into
clusters, and each cluster is drawn as a node that holds its components, which in turn hold
their functions.
-/

namespace ImportAtlas

/-- How much a cluster weighs. -/
inductive Risk where
  | low
  | medium
  | high
  deriving DecidableEq, Repr, Inhabited

namespace Risk

/-- More than five components are a high risk, more than two a medium one. -/
def ofSize (size : Nat) : Risk :=
  if size > 5 then .high else if size > 2 then .medium else .low

def text : Risk → Text
  | .low => "low"
  | .medium => "medium"
  | .high => "high"

/-- What is advised for a cluster. -/
def suggestion : Risk → Text
  | .high =>
      "Consider refactoring this large zombie cluster into smaller, reusable modules with " ++
        "clear entry points."
  | .medium =>
      "These components should either be connected to the main application or removed if unused."
  | .low => "This small zombie cluster may be unused code that can be safely removed."

end Risk

/-- What is said about one cluster. -/
structure ZombieCluster where
  id : Text
  components : List Atom
  entryPoints : List Atom
  /-- Functions by the name of their component. -/
  functions : Table Atom (List Atom)
  size : Nat
  risk : Risk
  deriving Inhabited

/-- Counts over all clusters. -/
structure ZombieStats where
  clusters : Nat
  components : Nat
  largest : Nat
  entryPoints : Nat
  /-- Components per cluster, the integer zero if there is no cluster. -/
  average : Number
  deriving Inhabited

/-- All clusters, their diagram and their counts. -/
structure ZombieReport where
  diagram : Diagram
  clusters : List ZombieCluster
  stats : ZombieStats
  /-- Vertices of the call graph. -/
  examined : Nat
  /-- Vertices that no entry point leads to. -/
  unreached : Nat
  deriving Inhabited

namespace ZombieCluster

/-- Members that another member points to. -/
def pointedAt (members : List Vertex) (graph : Digraph Vertex) : List Vertex :=
  members.flatMap fun vertex =>
    (graph.targets vertex).filter fun target => members.contains target && !(target == vertex)

/-- Functions of the members by the name of their component. -/
def functionsOf (members : List Vertex) (catalog : Catalog) : Table Atom (List Atom) :=
  (members.filterMap Vertex.function?).foldl
    (fun table function => table.push (catalog.displayName function.1) function.2) ∅

/-- Describe a cluster. Its entry points are the components that no other member points to. -/
def describe (id : Text) (members : List Vertex) (graph : Digraph Vertex) (catalog : Catalog) :
    ZombieCluster :=
  let ids := members.filterMap Vertex.component?
  let pointedAt := pointedAt members graph
  { id
    components := ids.map catalog.displayName
    entryPoints :=
      (ids.filter fun id => !pointedAt.contains (.component id)).map catalog.displayName
    functions := functionsOf members catalog
    size := ids.length
    risk := .ofSize ids.length }

end ZombieCluster

namespace ZombieReport

/-- Where the first component of a cluster stands, relative to the cluster. -/
def componentOrigin : Int × Int := (150, 50)

def componentSpacing : Int := 220

/-- Where the first function of a component stands, relative to the component. -/
def functionOrigin : Int × Int := (50, 60)

def functionStep : Int := 40

/-- The node drawn for each component that occurs among the members. A component that is only
the owner of a function gets a placeholder of this cluster. -/
def parentNodes (clusterId : Text) (members : List Vertex) : Table Text Text :=
  let ids := members.filterMap Vertex.component?
  let known : Table Text Text := Table.ofList (ids.map fun id => (id, id))
  (members.filterMap Vertex.function?).foldl
    (fun parents function =>
      if parents.contains function.1 then parents
      else parents.insert function.1 (clusterId ++ "/" ++ function.1))
    known

def clusterNode (clusterId : Text) (index : Int) (y : Number) : Diagram.Node where
  id := clusterId
  position := ⟨0, y⟩
  data := { label := .text ("Zombie Cluster " ++ Text.ofInt (index + 1)), path := clusterId }
  kind := some .cluster

def componentNode (catalog : Catalog) (clusterId : Text) (parent : Text × Text)
    (position : Diagram.Position) : Diagram.Node where
  id := parent.2
  position := position
  kind := some .zombie
  parent := some clusterId
  data :=
    match catalog.get? parent.1 with
    | some listing =>
        { label := listing.name, path := listing.path, directory := listing.directory,
          isComponent := some true }
    | none => { label := .text parent.1, path := parent.1, isComponent := some true }

/-- A function node in the given slot below its component. -/
def functionNode (catalog : Catalog) (parentId owner : Text) (name : Atom) (slot : Nat) :
    Diagram.Node where
  id := functionId owner name
  position := ⟨.int functionOrigin.1, .int (functionOrigin.2 + slot * functionStep)⟩
  kind := some .function
  parent := some parentId
  data :=
    { label := name
      path := functionId owner name
      directory := ((catalog.get? owner).map Listing.directory).getD (.text "") }

/-- The node that the functions of a component are drawn below. -/
def parentOf (parents : Table Text Text) (clusterId owner : Text) : Text :=
  (parents.get? owner).getD (clusterId ++ "/" ++ owner)

/-- Function nodes in order, each in the next free slot of its component. -/
def functionNodes (catalog : Catalog) (parents : Table Text Text) (clusterId : Text) :
    Table Text Nat → List (Text × Atom) → List Diagram.Node
  | _, [] => []
  | slots, (owner, name) :: functions =>
      let parentId := parentOf parents clusterId owner
      let slot := (slots.get? parentId).getD 0
      functionNode catalog parentId owner name slot ::
        functionNodes catalog parents clusterId (slots.insert parentId (slot + 1)) functions

/-- The edge from a cluster to the node drawn for one of its components. -/
def componentEdge (clusterId : Text) (parent : Text × Text) : Diagram.Edge where
  source := clusterId
  target := parent.2

/-- The edge from the node drawn for a component to one of its functions. -/
def functionEdge (parentId owner : Text) (name : Atom) : Diagram.Edge where
  source := parentId
  target := functionId owner name
  kind := some .exporting

/-- Draw a cluster: its own node, its components on a grid and below them their functions. Edges
lead from the cluster to its components and from them to their functions. -/
def drawCluster (clusterId : Text) (index : Int) (members : List Vertex) (y : Number)
    (catalog : Catalog) : Diagram :=
  let parents := parentNodes clusterId members
  let positions :=
    Diagram.wholeGrid parents.size componentOrigin.1 componentOrigin.2 componentSpacing
  let functions := members.filterMap Vertex.function?
  { nodes :=
      clusterNode clusterId index y ::
        List.zipWith (componentNode catalog clusterId) parents.entries positions ++
        functionNodes catalog parents clusterId ∅ functions
    edges :=
      List.zipWith (fun parent _ => componentEdge clusterId parent) parents.entries positions ++
        functions.map fun (owner, name) =>
          functionEdge (parentOf parents clusterId owner) owner name }

def clusterId (index : Int) : Text := "cluster-" ++ Text.ofInt index

/-- Draw clusters below each other, numbered from `start`. -/
def drawFrom (catalog : Catalog) (spacing : Number) (start : Nat) :
    List (List Vertex) → Diagram
  | [] => {}
  | members :: clusters =>
      drawCluster (clusterId start) start members (spacing.times start) catalog ++
        drawFrom catalog spacing (start + 1) clusters

/-- Describe clusters, numbered from `start`. -/
def describeFrom (catalog : Catalog) (graph : Digraph Vertex) (start : Nat) :
    List (List Vertex) → List ZombieCluster
  | [] => []
  | members :: clusters =>
      ZombieCluster.describe (clusterId start) members graph catalog ::
        describeFrom catalog graph (start + 1) clusters

/-- Of the listed vertices those that no entry point leads to. -/
def unreachedOf (vertices : List Vertex) (graph : Digraph Vertex) : List Vertex :=
  let reached := Digraph.reach (Digraph.entryPoints vertices graph) graph
  vertices.filter fun vertex => !reached.contains vertex

/-- The report on the listed vertices of a graph. -/
def ofVertices (vertices : List Vertex) (graph : Digraph Vertex) (catalog : Catalog)
    (settings : Settings) : ZombieReport :=
  let unreached := unreachedOf vertices graph
  let groups := Digraph.collectClusters unreached graph
  let clusters := describeFrom catalog graph 0 groups
  let sizes := clusters.map fun cluster => cluster.components.length
  let total := sizes.foldl (· + ·) 0
  { diagram := drawFrom catalog settings.clusterSpacing 0 groups
    clusters
    stats :=
      { clusters := clusters.length
        components := total
        largest := sizes.foldl max 0
        entryPoints := (Digraph.entryPoints vertices graph).length
        average :=
          if clusters.isEmpty then .int 0
          else .float (Float.ofNat total / Float.ofNat clusters.length) }
    examined := vertices.length
    unreached := unreached.length }

/-- The report on a list of components. -/
def ofComponents (components : List Component) (catalog : Catalog) (settings : Settings) :
    Except Fault ZombieReport :=
  (CallGraph.build components catalog).map fun built =>
    ofVertices built.vertices.keys built.graph catalog settings

/-- One line on what was found. -/
def summary (report : ZombieReport) : Text :=
  "Zombie clusters: " ++ Text.ofNat report.examined ++ " vertices, " ++
    Text.ofNat report.stats.entryPoints ++ " entry points, " ++
    Text.ofNat report.unreached ++ " unreached, " ++
    Text.ofNat report.clusters.length ++ " clusters"

end ZombieReport

def ZombieCluster.toJson (cluster : ZombieCluster) : Json :=
  .obj [
    ("id", .text cluster.id),
    ("components", .atoms cluster.components),
    ("entryPoints", .atoms cluster.entryPoints),
    ("functions",
      .obj (cluster.functions.entries.map fun entry => (Json.fieldName entry.1, .atoms entry.2))),
    ("size", .int cluster.size),
    ("risk", .text cluster.risk.text),
    ("suggestion", .text cluster.risk.suggestion)]

def ZombieStats.toJson (stats : ZombieStats) : Json :=
  .obj [
    ("totalClusters", .int stats.clusters),
    ("totalZombieComponents", .int stats.components),
    ("largestCluster", .int stats.largest),
    ("entryPointsCount", .int stats.entryPoints),
    ("avgComponentsPerCluster", .num stats.average)]

def ZombieReport.toJson (report : ZombieReport) : Json :=
  .obj [
    ("zombieClusterGraph", report.diagram.toJson),
    ("clusters", .arr (report.clusters.map ZombieCluster.toJson)),
    ("stats", report.stats.toJson)]

end ImportAtlas
