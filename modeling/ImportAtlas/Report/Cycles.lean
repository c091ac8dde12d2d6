import ImportAtlas.DependencyGraph
import ImportAtlas.Diagram.Layout
import ImportAtlas.Digraph.Cycle
import ImportAtlas.Settings

/-!
# The report on import cycles

Every cycle of the dependency graph is a group. The components on cycles are drawn on a ring, in
the order in which they were found, with the edges of all cycles between them.
-/

namespace ImportAtlas

/-- One cycle. -/
structure CycleGroup where
  id : Text
  names : List Atom
  members : List Text
  size : Nat
  isCritical : Bool
  deriving Inhabited

/-- Counts over all cycles. -/
structure CycleStats where
  groups : Nat
  components : Nat
  longest : Nat
  critical : Nat
  namesByGroup : Table Text (List Atom)
  deriving Inhabited

/-- All cycles, their diagram and their counts. -/
structure CycleReport where
  diagram : Diagram
  groups : List CycleGroup
  /-- Every component on a cycle, in the order of discovery. -/
  vertices : List Text
  stats : CycleStats
  deriving Inhabited

namespace CycleReport

/-- A cycle with more members than this is critical. -/
def criticalSize : Nat := 3

def color : Text := "#ff6b6b"

/-- What is advised for every cycle. -/
def advice : Text := "Consider extracting common functionality into a shared utility"

/-- Each member of a cycle with the next one, the last with the first. -/
def ring (cycle : List Text) : List (Text × Text) :=
  cycle.zip (cycle.drop 1 ++ cycle.take 1)

def ringEdge (source target : Text) : Diagram.Edge where
  source := source
  target := target
  kind := some .importing
  label := some "circular"
  animated := true
  style := [("stroke", .text color), ("strokeWidth", .int 2)]
  markerEnd := [("type", .text "arrowclosed"), ("color", .text color)]

/-- Enter an edge unless its identifier is taken. -/
def addEdge (edges : Table Text Diagram.Edge) (pair : Text × Text) :
    Table Text Diagram.Edge :=
  let edge := ringEdge pair.1 pair.2
  if edges.contains edge.id then edges else edges.insert edge.id edge

/-- The edges of all cycles. -/
def ringEdges (cycles : List (List Text)) : List Diagram.Edge :=
  ((cycles.flatMap ring).foldl addEdge ∅).values

/-- The node of a component on a cycle. An unknown one is shown by its identifier. -/
def ringNode (catalog : Catalog) (id : Text) (position : Diagram.Position) : Diagram.Node where
  id := id
  position := position
  kind := some .circular
  data :=
    match catalog.get? id with
    | some listing =>
        { label := listing.name, path := listing.path, directory := listing.directory,
          fileType := Diagram.fileType? listing.path, isComponent := some true }
    | none => { label := .text id, path := id, isComponent := some true }

def group (catalog : Catalog) (index : Nat) (cycle : List Text) : CycleGroup where
  id := "circular-" ++ Text.ofNat index
  names := cycle.map catalog.displayName
  members := cycle
  size := cycle.length
  isCritical := cycle.length > criticalSize

/-- The groups of some cycles, numbered from `start`. -/
def groupsFrom (catalog : Catalog) (start : Nat) : List (List Text) → List CycleGroup
  | [] => []
  | cycle :: cycles => group catalog start cycle :: groupsFrom catalog (start + 1) cycles

/-- Vertices on cycles, each once. -/
def verticesOn (cycles : List (List Text)) : List Text := cycles.flatten.eraseDups

/-- The report on given cycles. -/
def ofCycles (cycles : List (List Text)) (catalog : Catalog) (settings : Settings) :
    Except Fault CycleReport := do
  let vertices := verticesOn cycles
  let positions ←
    Diagram.circle vertices.length settings.center.1 settings.center.2 settings.radius
  let groups := groupsFrom catalog 0 cycles
  return {
    diagram :=
      { nodes := List.zipWith (ringNode catalog) vertices positions
        edges := ringEdges cycles }
    groups
    vertices
    stats :=
      { groups := cycles.length
        components := vertices.length
        longest := (cycles.map List.length).foldl max 0
        critical := cycles.countP fun cycle => cycle.length > criticalSize
        namesByGroup := Table.ofList (groups.map fun group => (group.id, group.names)) } }

/-- The report on the cycles of a graph. -/
def ofGraph (graph : Digraph Text) (catalog : Catalog) (settings : Settings) :
    Except Fault CycleReport :=
  ofCycles graph.findCycles catalog settings

/-- One line on what was found. -/
def summary (report : CycleReport) : Text :=
  "Circular dependencies: " ++ Text.ofNat report.stats.groups ++ " cycles over " ++
    Text.ofNat report.stats.components ++ " components"

end CycleReport

def CycleGroup.toJson (group : CycleGroup) : Json :=
  .obj [
    ("id", .text group.id),
    ("components", .atoms group.names),
    ("path", .atoms group.names),
    ("componentIds", .texts group.members),
    ("size", .int group.size),
    ("isCritical", .bool group.isCritical),
    ("breakSuggestions",
      .arr (group.names.head?.map fun name =>
        Json.obj [("component", .atom name),
          ("alternativeDesign", .text CycleReport.advice)]).toList)]

def CycleStats.toJson (stats : CycleStats) : Json :=
  .obj [
    ("totalCircularGroups", .int stats.groups),
    ("totalComponentsInCircular", .int stats.components),
    ("maxCircularPathLength", .int stats.longest),
    ("criticalCircularPaths", .int stats.critical),
    ("componentsByCircularGroups",
      .obj (stats.namesByGroup.entries.map fun entry => (entry.1, .atoms entry.2)))]

def CycleReport.toJson (report : CycleReport) : Json :=
  .obj [
    ("circularDependencyGraph", report.diagram.toJson),
    ("circularGroups", .arr (report.groups.map CycleGroup.toJson)),
    ("stats", report.stats.toJson)]

end ImportAtlas
