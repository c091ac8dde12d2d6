import ImportAtlas.Proofs.CycleReport
import ImportAtlas.Proofs.Totality
import Mathlib.Data.Finset.Card

/-!
# The report on import cycles agrees with the cycles

Groups, nodes, edges and counts of a report are made apart from each other. The groups are the
cycles in the order in which they were found, and everything else can be told from them: the counts
are those of the groups, and the names of a group stand under its identifier, which no other group
has.
Every node has a position, so none is lost where nodes and positions are put together, and every
edge joins two nodes along an edge of the graph.
-/

namespace ImportAtlas.CycleReport

open ImportAtlas.Digraph

variable {graph : Digraph Text} {catalog : Catalog} {settings : Settings} {report : CycleReport}

/-! ## Groups -/

/-- What a group says of its members. -/
structure Describes (catalog : Catalog) (group : CycleGroup) : Prop where
  size : group.size = group.members.length
  critical : group.isCritical = true ↔ 3 < group.members.length
  names : group.names = group.members.map catalog.displayName

theorem groupsFrom_eq (catalog : Catalog) (start : Nat) (cycles : List (List Text)) :
    groupsFrom catalog start cycles =
      (cycles.zipIdx start).map fun entry => group catalog entry.2 entry.1 := by
  induction cycles generalizing start with
  | nil => rfl
  | cons cycle cycles ih =>
      rw [groupsFrom, ih]
      rfl

theorem members_groupsFrom (catalog : Catalog) (start : Nat) (cycles : List (List Text)) :
    (groupsFrom catalog start cycles).map CycleGroup.members = cycles := by
  rw [groupsFrom_eq, List.map_map]
  exact List.zipIdx_map_fst start cycles

theorem describes_of_mem_groupsFrom {start : Nat} {cycles : List (List Text)} {member : CycleGroup}
    (isGroup : member ∈ groupsFrom catalog start cycles) : Describes catalog member := by
  rw [groupsFrom_eq, List.mem_map] at isGroup
  rcases isGroup with ⟨entry, -, rfl⟩
  constructor
  · rfl
  · exact decide_eq_true_iff
  · rfl

/-- Groups are numbered, and no two numbers have the same digits. -/
theorem nodup_ids_groupsFrom (catalog : Catalog) (start : Nat) (cycles : List (List Text)) :
    ((groupsFrom catalog start cycles).map CycleGroup.id).Nodup := by
  have numbered : (groupsFrom catalog start cycles).map CycleGroup.id =
      (List.range' start cycles.length).map fun index => "circular-" ++ Text.ofNat index := by
    rw [groupsFrom_eq, List.map_map, ← List.zipIdx_map_snd start cycles, List.map_map]
    rfl
  rw [numbered]
  apply List.Nodup.map _ List.nodup_range'
  intro left right equal
  exact Text.ofNat_injective (List.append_cancel_left equal)

/-! ## Counts -/

/-- Counts that are those of some groups. The names of each group are entered once, under its
identifier. -/
structure Counts (counted : List CycleGroup) (stats : CycleStats) : Prop where
  groups : stats.groups = counted.length
  components : stats.components = (counted.flatMap CycleGroup.members).toFinset.card
  longest : stats.longest = (counted.map CycleGroup.size).max?.getD 0
  critical : stats.critical = counted.countP CycleGroup.isCritical
  ids : (counted.map CycleGroup.id).Nodup
  names : stats.namesByGroup.entries = counted.map fun group => (group.id, group.names)

theorem length_verticesOn (cycles : List (List Text)) :
    (verticesOn cycles).length = cycles.flatten.toFinset.card := by
  have sameItems : cycles.flatten.toFinset = (verticesOn cycles).toFinset := by
    ext vertex
    rw [verticesOn, List.mem_toFinset, List.mem_toFinset, List.mem_eraseDups]
  have nodup : (verticesOn cycles).Nodup := (distinct_eraseDups _).nodup
  rw [sameItems, List.toFinset_card_of_nodup nodup]

theorem counts_of_describes {groups : List CycleGroup}
    (described : ∀ group ∈ groups, Describes catalog group)
    (ids : (groups.map CycleGroup.id).Nodup) {cycles : List (List Text)}
    (members : groups.map CycleGroup.members = cycles) :
    Counts groups
      { groups := cycles.length
        components := (verticesOn cycles).length
        longest := (cycles.map List.length).foldl max 0
        critical := cycles.countP fun cycle => cycle.length > criticalSize
        namesByGroup := Table.ofList (groups.map fun group => (group.id, group.names)) } := by
  subst members
  constructor
  · exact List.length_map _
  · rw [length_verticesOn, List.flatMap_def]
  · have sizes : (groups.map CycleGroup.members).map List.length = groups.map CycleGroup.size := by
      rw [List.map_map]
      apply List.map_congr_left
      intro group isGroup
      exact (described group isGroup).size.symm
    rw [sizes, List.foldl_max, Nat.zero_max]
  · rw [List.countP_map]
    apply List.countP_congr
    intro group isGroup
    rw [(described group isGroup).critical]
    exact decide_eq_true_iff
  · exact ids
  · apply Table.entries_ofList_of_nodup
    rw [List.map_map]
    exact ids

/-! ## Nodes and edges -/

theorem follows_of_mem_steps {walk : List Text} {step : Text × Text} (isStep : step ∈ steps walk) :
    Follows walk step.1 step.2 := by
  rcases List.mem_ofFn.1 isStep with ⟨position, rfl⟩
  exact ⟨position, List.getElem?_eq_getElem _, List.getElem?_eq_getElem _⟩

/-- An edge that is drawn is a step round one of the cycles. -/
theorem exists_follows_of_mem_ringEdges {cycles : List (List Text)} {edge : Diagram.Edge}
    (drawn : edge ∈ ringEdges cycles) :
    ∃ cycle ∈ cycles, Follows cycle edge.source edge.target := by
  rw [ringEdges_eq, List.mem_map] at drawn
  rcases drawn with ⟨step, isFirst, rfl⟩
  rcases List.mem_flatMap.1 (firstsBy_subset stepId _ isFirst) with ⟨cycle, isCycle, isStep⟩
  exact ⟨cycle, isCycle, follows_of_mem_steps isStep⟩

/-- A report that agrees with the cycles of a graph. -/
structure Agrees (graph : Digraph Text) (catalog : Catalog) (report : CycleReport) : Prop where
  members : report.groups.map CycleGroup.members = graph.findCycles
  described : ∀ group ∈ report.groups, Describes catalog group
  vertices : report.vertices = graph.findCycles.flatten.eraseDups
  order : report.vertices.Pairwise fun earlier later =>
    graph.findCycles.flatten.idxOf earlier < graph.findCycles.flatten.idxOf later
  nodes : report.diagram.nodes.map Diagram.Node.id = report.vertices
  edges : ∀ edge ∈ report.diagram.edges, graph.Edge edge.source edge.target ∧
    edge.source ∈ report.diagram.nodes.map Diagram.Node.id ∧
    edge.target ∈ report.diagram.nodes.map Diagram.Node.id
  counts : Counts report.groups report.stats

theorem agrees_ofGraph (made : ofGraph graph catalog settings = .ok report) :
    Agrees graph catalog report := by
  rcases bind_eq_ok_iff.1 made with ⟨positions, placed, returned⟩
  cases returned
  have enough := Diagram.length_of_circle placed
  have drawn : (List.zipWith (ringNode catalog) (verticesOn graph.findCycles) positions).map
      Diagram.Node.id = verticesOn graph.findCycles :=
    (Diagram.map_zipWith_placed Diagram.Node.id id (fun _ _ => rfl) enough).trans (List.map_id _)
  have members := members_groupsFrom catalog 0 graph.findCycles
  have described : ∀ group ∈ groupsFrom catalog 0 graph.findCycles, Describes catalog group :=
    fun _ isGroup => describes_of_mem_groupsFrom isGroup
  refine ⟨members, described, rfl, pairwise_idxOf_eraseDups _, drawn, ?_,
    counts_of_describes described (nodup_ids_groupsFrom catalog 0 graph.findCycles) members⟩
  intro edge isEdge
  rcases exists_follows_of_mem_ringEdges isEdge with ⟨cycle, reported, follows⟩
  rw [drawn]
  exact ⟨(isCycle_of_mem_findCycles reported).2.edge follows,
    mem_verticesOn_of_mem reported follows.mem_left,
    mem_verticesOn_of_mem reported follows.mem_right⟩

/-- A report that is made agrees with the cycles of the graph. One is made unless there is a cycle
to draw and a number of the circle is out of range. -/
theorem report_agrees_with_cycles (graph : Digraph Text) (catalog : Catalog)
    (settings : Settings) :
    (∀ report, ofGraph graph catalog settings = .ok report → Agrees graph catalog report) ∧
    (graph.findCycles = [] ∨ settings.Drawable →
      ∃ report, ofGraph graph catalog settings = .ok report) ∧
    (graph.findCycles ≠ [] → ¬ settings.Drawable →
      ofGraph graph catalog settings = .error .overflow) := by
  refine ⟨fun _ made => agrees_ofGraph made, ?_, ofGraph_eq_error catalog⟩
  intro placeable
  rcases exists_ofGraph_named catalog placeable with ⟨report, made, -⟩
  exact ⟨report, made⟩

/-- Four components in a ring, two of which import each other. -/
def lane : Digraph Text := Table.ofList
  [("src/App.tsx#App", ["src/Menu.tsx#Menu"]),
   ("src/Menu.tsx#Menu", ["src/App.tsx#App", "src/Page.tsx#Page"]),
   ("src/Page.tsx#Page", ["src/Link.tsx#Link"]),
   ("src/Link.tsx#Link", ["src/App.tsx#App"])]

def laneCycles : List (List Text) :=
  [["src/App.tsx#App", "src/Menu.tsx#Menu"],
   ["src/App.tsx#App", "src/Menu.tsx#Menu", "src/Page.tsx#Page", "src/Link.tsx#Link"]]

theorem lane_report_agrees :
    lane.findCycles = laneCycles ∧
    ∃ report, ofGraph lane {} {} = .ok report ∧
      report.groups.map CycleGroup.members = laneCycles ∧
      report.diagram.nodes.map Diagram.Node.id =
        (["src/App.tsx#App", "src/Menu.tsx#Menu", "src/Page.tsx#Page", "src/Link.tsx#Link"] :
          List Text) ∧
      report.stats.groups = 2 ∧ report.stats.components = 4 ∧
      Counts report.groups report.stats := by
  have found : lane.findCycles = laneCycles := by decide +kernel
  have holds := report_agrees_with_cycles lane {} {}
  rcases holds.2.1 (.inr Settings.drawable_default) with ⟨report, made⟩
  have agrees := holds.1 report made
  have members : report.groups.map CycleGroup.members = laneCycles := agrees.members.trans found
  refine ⟨found, report, made, members, ?_, ?_, ?_, agrees.counts⟩
  · rw [agrees.nodes, agrees.vertices, found]
    decide +kernel
  · rw [agrees.counts.groups, ← List.length_map CycleGroup.members, members]
    rfl
  · rw [agrees.counts.components, List.flatMap_def, members]
    decide +kernel

end ImportAtlas.CycleReport
