import ImportAtlas.Proofs.Diagram.Layout
import ImportAtlas.Proofs.Digraph.Order
import ImportAtlas.Proofs.Except
import ImportAtlas.Proofs.Text
import ImportAtlas.Report.Cycles
import Mathlib.Data.List.Rotate

/-!
# What the report on import cycles draws

The report draws the cycles that the search finds: a node for each vertex on one of them, and an
edge for each step round one of them. Not every vertex that lies on a cycle is on one that is
found, so the vertices drawn are told by the order of the search, and every cycle goes through
one of them. Edges are told apart by their identifiers, so two steps are drawn as one edge where
the texts of their ends run together to the same identifier.
-/

namespace ImportAtlas.CycleReport

open ImportAtlas.Digraph

/-- A report is made, and it draws the cycles that are found. -/
theorem exists_ofGraph (graph : Digraph Text) (catalog : Catalog) {settings : Settings}
    (drawable : settings.Drawable) :
    ∃ report, ofGraph graph catalog settings = .ok report ∧
      report.vertices = verticesOn graph.findCycles ∧
      report.diagram.nodes.map Diagram.Node.id = report.vertices ∧
      report.diagram.edges = ringEdges graph.findCycles ∧
      report.stats.components = report.vertices.length := by
  rcases Diagram.exists_circle drawable (verticesOn graph.findCycles).length with
    ⟨positions, placed, enough⟩
  have drawn : (List.zipWith (ringNode catalog) (verticesOn graph.findCycles) positions).map
      Diagram.Node.id = (verticesOn graph.findCycles).map id :=
    Diagram.map_zipWith_placed Diagram.Node.id id (fun _ _ => rfl) enough
  exact ⟨_, bind_eq_ok_iff.2 ⟨positions, placed, rfl⟩, rfl, drawn.trans (List.map_id _), rfl, rfl⟩

/-! ## Vertices -/

theorem mem_verticesOn_of_mem {cycles : List (List Text)} {cycle : List Text} {vertex : Text}
    (isCycle : cycle ∈ cycles) (onCycle : vertex ∈ cycle) : vertex ∈ verticesOn cycles := by
  rw [verticesOn, List.mem_eraseDups, List.mem_flatten]
  exact ⟨cycle, isCycle, onCycle⟩

theorem mem_verticesOn_iff {graph : Digraph Text} {vertex : Text} :
    vertex ∈ verticesOn graph.findCycles ↔ graph.search.Returns graph vertex := by
  rw [verticesOn, List.mem_eraseDups, List.mem_flatten]
  exact exists_mem_findCycles_iff

/-- Every cycle goes through a vertex that is on a cycle that is found. -/
theorem exists_mem_verticesOn {graph : Digraph Text} {walk : List Text}
    (isCycle : graph.IsCycle walk) :
    ∃ cycle ∈ graph.findCycles, ∃ vertex ∈ walk, vertex ∈ cycle := by
  rcases isCycle.exists_closing with ⟨cycle, reported, source, target, isClosing, follows⟩
  exact ⟨cycle, reported, target, follows.mem_right, (Follows.of_closing isClosing).mem_right⟩

/-- Where no two cycles share a vertex, no vertex on a cycle is missed. -/
theorem mem_verticesOn_of_apart {graph : Digraph Text} (apart : graph.CyclesApart) {vertex : Text}
    (round : Relation.TransGen graph.Edge vertex vertex) :
    vertex ∈ verticesOn graph.findCycles := by
  rcases exists_isCycle_of_transGen round with ⟨walk, isCycle, member⟩
  rcases exists_mem_verticesOn isCycle with ⟨cycle, reported, common, inWalk, inCycle⟩
  have along := apart.subset isCycle (isCycle_of_mem_findCycles reported).2 inWalk inCycle
  exact mem_verticesOn_of_mem reported (along member)

/-- The vertices of a report are those that return, and each is drawn and counted once. They lie
on cycles, and every cycle goes through one of them. So they are all vertices on cycles exactly if
those all return, which they do where no two cycles share a vertex. -/
theorem vertices_are_returning (graph : Digraph Text) (catalog : Catalog) {settings : Settings}
    (drawable : settings.Drawable) :
    ∃ report, ofGraph graph catalog settings = .ok report ∧
      report.vertices.Nodup ∧
      report.diagram.nodes.map Diagram.Node.id = report.vertices ∧
      report.stats.components = report.vertices.length ∧
      (∀ vertex, vertex ∈ report.vertices ↔ graph.search.Returns graph vertex) ∧
      (∀ vertex ∈ report.vertices, Relation.TransGen graph.Edge vertex vertex) ∧
      (∀ walk, graph.IsCycle walk → ∃ vertex ∈ walk, vertex ∈ report.vertices) ∧
      ((∀ vertex, vertex ∈ report.vertices ↔ Relation.TransGen graph.Edge vertex vertex) ↔
        ∀ vertex, Relation.TransGen graph.Edge vertex vertex →
          graph.search.Returns graph vertex) ∧
      (graph.CyclesApart →
        ∀ vertex, vertex ∈ report.vertices ↔ Relation.TransGen graph.Edge vertex vertex) := by
  rcases exists_ofGraph graph catalog drawable with ⟨report, made, vertices, drawn, -, counted⟩
  have onCycle : ∀ vertex ∈ verticesOn graph.findCycles,
      Relation.TransGen graph.Edge vertex vertex :=
    fun vertex member => (mem_verticesOn_iff.1 member).transGen
  refine ⟨report, made, ?_, drawn, counted, ?_⟩
  · rw [vertices]
    exact (distinct_eraseDups _).nodup
  · rw [vertices]
    refine ⟨fun vertex => mem_verticesOn_iff, onCycle, ?_, ?_, ?_⟩
    · intro walk isCycle
      rcases exists_mem_verticesOn isCycle with ⟨cycle, reported, vertex, inWalk, inCycle⟩
      refine ⟨vertex, inWalk, ?_⟩
      rw [verticesOn, List.mem_eraseDups, List.mem_flatten]
      exact ⟨cycle, reported, inCycle⟩
    · constructor
      · intro exactly vertex round
        exact mem_verticesOn_iff.1 ((exactly vertex).2 round)
      · intro returning vertex
        exact ⟨onCycle vertex, fun round => mem_verticesOn_iff.2 (returning vertex round)⟩
    · intro apart vertex
      exact ⟨onCycle vertex, mem_verticesOn_of_apart apart⟩

/-- A menu and an application that import each other, and a page between them. The page has been
entered after the menu was left, so that its way back is no longer found. -/
def detour : Digraph Text := Table.ofList
  [("src/App.tsx#App", ["src/Menu.tsx#Menu", "src/Page.tsx#Page"]),
   ("src/Menu.tsx#Menu", ["src/App.tsx#App"]),
   ("src/Page.tsx#Page", ["src/Menu.tsx#Menu"])]

theorem verticesOn_detour :
    verticesOn detour.findCycles = ["src/App.tsx#App", "src/Menu.tsx#Menu"] := by
  decide +kernel

theorem detour_is_returning :
    ({} : Settings).Drawable ∧
    ∃ report, ofGraph detour {} {} = .ok report ∧
      (report.diagram.nodes.map Diagram.Node.id).Nodup ∧
      (detour.search.Returns detour "src/Menu.tsx#Menu" ∧
        ("src/Menu.tsx#Menu" : Text) ∈ report.vertices) ∧
      (¬ detour.search.Returns detour "src/Page.tsx#Page" ∧
        ("src/Page.tsx#Page" : Text) ∉ report.vertices) := by
  rcases vertices_are_returning detour {} Settings.drawable_default with
    ⟨report, made, distinct, drawn, -, exactly, -⟩
  have menu : detour.search.Returns detour "src/Menu.tsx#Menu" := by
    rw [← mem_verticesOn_iff, verticesOn_detour]
    decide
  have page : ¬ detour.search.Returns detour "src/Page.tsx#Page" := by
    rw [← mem_verticesOn_iff, verticesOn_detour]
    decide
  refine ⟨Settings.drawable_default, report, made, drawn ▸ distinct, ⟨menu, ?_⟩, page, ?_⟩
  · exact (exactly _).2 menu
  · exact fun member => page ((exactly _).1 member)

/-- The page lies on a cycle and is not reported. -/
theorem detour_misses_page :
    Relation.TransGen detour.Edge "src/Page.tsx#Page" "src/Page.tsx#Page" ∧
    ∃ report, ofGraph detour {} {} = .ok report ∧
      ("src/Page.tsx#Page" : Text) ∉ report.vertices := by
  constructor
  · have toMenu : detour.Edge "src/Page.tsx#Page" "src/Menu.tsx#Menu" := by
      rw [edge_iff_mem]
      decide +kernel
    have toApp : detour.Edge "src/Menu.tsx#Menu" "src/App.tsx#App" := by
      rw [edge_iff_mem]
      decide +kernel
    have toPage : detour.Edge "src/App.tsx#App" "src/Page.tsx#Page" := by
      rw [edge_iff_mem]
      decide +kernel
    exact ((Relation.TransGen.single toMenu).tail toApp).tail toPage
  · rcases exists_ofGraph detour {} Settings.drawable_default with ⟨report, made, vertices, -⟩
    refine ⟨report, made, ?_⟩
    rw [vertices, verticesOn_detour]
    decide

/-! ## Edges -/

/-- The steps of a closed walk, from each position to the next and from the last to the first. -/
def steps (walk : List Text) : List (Text × Text) :=
  List.ofFn fun position : Fin walk.length =>
    (walk.get position, walk.get ⟨(position + 1) % walk.length, Nat.mod_lt _ position.pos⟩)

theorem ring_eq_steps (cycle : List Text) : ring cycle = steps cycle := by
  by_cases empty : cycle = []
  · rw [empty]
    rfl
  · have turned : cycle.drop 1 ++ cycle.take 1 = cycle.rotate 1 :=
      (List.rotate_eq_drop_append_take (List.length_pos_of_ne_nil empty)).symm
    rw [ring, turned, steps]
    apply List.ext_getElem
    · simp
    · intro position _ _
      simp only [List.getElem_zip, List.getElem_rotate, List.getElem_ofFn, List.get_eq_getElem]

/-- How a step is told from others. -/
def stepId (step : Text × Text) : Text := Diagram.edgeId step.1 step.2

/-- The edges of a report are the steps round its cycles, the first with each identifier. -/
theorem ringEdges_eq (cycles : List (List Text)) :
    ringEdges cycles =
      (firstsBy stepId (cycles.flatMap steps)).map fun step => ringEdge step.1 step.2 := by
  have sameSteps : cycles.flatMap ring = cycles.flatMap steps := by
    rw [funext ring_eq_steps]
  have written : ((cycles.flatMap steps).foldl addEdge ∅).entries = _ :=
    Table.entries_foldl_insert_new stepId (fun step => ringEdge step.1 step.2) _ ∅
  rw [ringEdges, sameSteps, Table.values, written]
  simp [Table.contains]

/-- The identifier of a component whose path has no number sign and whose name has no dash. -/
def IsPlain (vertex : Text) : Prop :=
  ∃ path name : Text, vertex = path ++ "#" ++ name ∧
    CodePoint.char '#' ∉ path ∧ CodePoint.char '-' ∉ name

/-- The first number sign ends the path of the source, and the next dash its name. -/
theorem stepId_injective {first second : Text × Text} (firstPlain : IsPlain first.1)
    (secondPlain : IsPlain second.1) (same : stepId first = stepId second) : first = second := by
  rcases first with ⟨source, target⟩
  rcases second with ⟨otherSource, otherTarget⟩
  rcases firstPlain with ⟨path, name, rfl, pathFree, nameFree⟩
  rcases secondPlain with ⟨otherPath, otherName, rfl, otherPathFree, otherNameFree⟩
  have texts : path ++ .char '#' :: (name ++ .char '-' :: target) =
      otherPath ++ .char '#' :: (otherName ++ .char '-' :: otherTarget) := by
    simpa [stepId, Diagram.edgeId, Text.ofString] using same
  rcases Text.append_cons_inj_first pathFree otherPathFree texts with ⟨rfl, behindPath⟩
  rcases Text.append_cons_inj_first nameFree otherNameFree behindPath with ⟨rfl, rfl⟩
  rfl

theorem mem_of_mem_steps {walk : List Text} {step : Text × Text} (member : step ∈ steps walk) :
    step.1 ∈ walk := by
  rcases List.mem_ofFn.1 member with ⟨position, rfl⟩
  exact List.get_mem walk position

/-- The edges of a report are the steps round the cycles that are found, the first with each
identifier, so no two have the same identifier. They are all steps, each once, exactly if no two
steps share an identifier, which is so if the vertices on the cycles are plain. -/
theorem edges_are_first_steps (graph : Digraph Text) (catalog : Catalog) {settings : Settings}
    (drawable : settings.Drawable) :
    ∃ report, ofGraph graph catalog settings = .ok report ∧
      (report.diagram.edges.map Diagram.Edge.id).Nodup ∧
      report.diagram.edges.map Diagram.Edge.ends =
        firstsBy stepId (graph.findCycles.flatMap steps) ∧
      (report.diagram.edges.map Diagram.Edge.ends =
          (graph.findCycles.flatMap steps).eraseDups ↔
        ∀ first ∈ graph.findCycles.flatMap steps, ∀ second ∈ graph.findCycles.flatMap steps,
          stepId first = stepId second → first = second) ∧
      ((∀ vertex ∈ report.vertices, IsPlain vertex) →
        report.diagram.edges.map Diagram.Edge.ends =
          (graph.findCycles.flatMap steps).eraseDups) := by
  rcases exists_ofGraph graph catalog drawable with ⟨report, made, vertices, -, edges, -⟩
  have pairs : report.diagram.edges.map Diagram.Edge.ends =
      firstsBy stepId (graph.findCycles.flatMap steps) := by
    rw [edges, ringEdges_eq, List.map_map]
    exact List.map_id _
  have ids : report.diagram.edges.map Diagram.Edge.id =
      ((graph.findCycles.flatMap steps).map stepId).eraseDups := by
    rw [edges, ringEdges_eq, List.map_map, ← map_firstsBy]
    rfl
  refine ⟨report, made, ?_, pairs, ?_, ?_⟩
  · rw [ids]
    exact (distinct_eraseDups _).nodup
  · rw [pairs]
    exact firstsBy_eq_eraseDups_iff
  · intro plain
    rw [pairs, firstsBy_eq_eraseDups_iff]
    have sourcePlain : ∀ step ∈ graph.findCycles.flatMap steps, IsPlain step.1 := by
      intro step isStep
      rcases List.mem_flatMap.1 isStep with ⟨cycle, reported, isStep⟩
      apply plain
      rw [vertices, verticesOn, List.mem_eraseDups, List.mem_flatten]
      exact ⟨cycle, reported, mem_of_mem_steps isStep⟩
    intro first isFirst second isSecond
    exact stepId_injective (sourcePlain first isFirst) (sourcePlain second isSecond)

/-- Two cycles that share a step. -/
def fork : Digraph Text := Table.ofList
  [("a#A", ["b#B"]), ("b#B", ["a#A", "c#C"]), ("c#C", ["a#A"])]

theorem fork_draws_first_steps :
    ({} : Settings).Drawable ∧
    fork.findCycles = ([["a#A", "b#B"], ["a#A", "b#B", "c#C"]] : List (List Text)) ∧
    ∃ report, ofGraph fork {} {} = .ok report ∧ (∀ vertex ∈ report.vertices, IsPlain vertex) ∧
      report.diagram.edges.map Diagram.Edge.ends =
        ([("a#A", "b#B"), ("b#B", "a#A"), ("b#B", "c#C"), ("c#C", "a#A")] :
          List (Text × Text)) := by
  rcases edges_are_first_steps fork {} Settings.drawable_default with
    ⟨report, made, -, -, -, whenPlain⟩
  rcases exists_ofGraph fork {} Settings.drawable_default with ⟨same, madeSame, vertices, -⟩
  cases made.symm.trans madeSame
  have plain : ∀ vertex ∈ report.vertices, IsPlain vertex := by
    have three : verticesOn fork.findCycles = (["a#A", "b#B", "c#C"] : List Text) := by
      decide +kernel
    rw [vertices, three]
    rw [List.forall_mem_cons, List.forall_mem_cons, List.forall_mem_singleton]
    exact ⟨⟨"a", "A", by decide⟩, ⟨"b", "B", by decide⟩, ⟨"c", "C", by decide⟩⟩
  refine ⟨Settings.drawable_default, by decide +kernel, report, made, plain, ?_⟩
  rw [whenPlain plain]
  decide +kernel

/-- Two cycles with a step each whose ends run together to the same text. -/
def namesakes : Digraph Text := Table.ofList
  [("ui.tsx#card", ["list-item.tsx#Item"]), ("list-item.tsx#Item", ["ui.tsx#card"]),
   ("ui.tsx#card-list", ["item.tsx#Item"]), ("item.tsx#Item", ["ui.tsx#card-list"])]

/-- The second of the two steps is not drawn. -/
theorem namesakes_lose_step :
    (("ui.tsx#card-list", "item.tsx#Item") : Text × Text) ∈ namesakes.findCycles.flatMap steps ∧
    ∃ report, ofGraph namesakes {} {} = .ok report ∧
      (("ui.tsx#card-list", "item.tsx#Item") : Text × Text) ∉
        report.diagram.edges.map Diagram.Edge.ends := by
  refine ⟨by decide +kernel, ?_⟩
  rcases exists_ofGraph namesakes {} Settings.drawable_default with ⟨report, made, -, -, edges, -⟩
  refine ⟨report, made, ?_⟩
  rw [edges]
  decide +kernel

end ImportAtlas.CycleReport
