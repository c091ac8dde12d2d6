import ImportAtlas.Proofs.CallGraph.Functions
import ImportAtlas.Proofs.CycleReport
import ImportAtlas.Proofs.Digraph.Checked
import ImportAtlas.Proofs.ZombieDiagram

/-!
# Analyses that return

The catalog, the graphs and both reports of records with texts can always be made, whatever the
texts are: records may share an identifier, have empty names and paths, import what is not there
and call what is not declared. No step on the way lacks what it needs: the searches pass their
checks, every function finds the node it is drawn below, and every group of a cycle report has a
first name. The one thing that keeps a report from being made is a circle that is placed by
integers beyond the range of doubles.
-/

namespace ImportAtlas

/-! ## Drawing with checks -/

namespace ZombieReport

/-- Function nodes below parents that must be known. -/
def functionNodes? (catalog : Catalog) (parents : Table Text Text) :
    Table Text Nat → List (Text × Atom) → Option (List Diagram.Node)
  | _, [] => some []
  | slots, (owner, name) :: functions => do
      let parentId ← parents.get? owner
      let slot := (slots.get? parentId).getD 0
      let others ← functionNodes? catalog parents (slots.insert parentId (slot + 1)) functions
      return functionNode catalog parentId owner name slot :: others

/-- Edges to functions from parents that must be known. -/
def functionEdges? (parents : Table Text Text) :
    List (Text × Atom) → Option (List Diagram.Edge)
  | [] => some []
  | (owner, name) :: functions => do
      let parentId ← parents.get? owner
      let others ← functionEdges? parents functions
      return functionEdge parentId owner name :: others

/-- A cluster whose functions all find their parents. -/
def drawCluster? (clusterId : Text) (index : Int) (members : List Vertex) (y : Number)
    (catalog : Catalog) : Option Diagram := do
  let parents := parentNodes clusterId members
  let positions :=
    Diagram.wholeGrid parents.size componentOrigin.1 componentOrigin.2 componentSpacing
  let functions := members.filterMap Vertex.function?
  let functionNodes ← functionNodes? catalog parents ∅ functions
  let functionEdges ← functionEdges? parents functions
  return {
    nodes :=
      clusterNode clusterId index y ::
        List.zipWith (componentNode catalog clusterId) parents.entries positions ++ functionNodes
    edges :=
      List.zipWith (fun parent _ => componentEdge clusterId parent) parents.entries positions ++
        functionEdges }

def drawFrom? (catalog : Catalog) (spacing : Number) (start : Nat) :
    List (List Vertex) → Option Diagram
  | [] => some {}
  | members :: clusters => do
      let first ← drawCluster? (clusterId start) start members (spacing.times start) catalog
      let others ← drawFrom? catalog spacing (start + 1) clusters
      return first ++ others

section Known

variable {parents : Table Text Text} {functions : List (Text × Atom)}
  (known : ∀ function ∈ functions, ∃ parentId, parents.get? function.1 = some parentId)

include known

theorem functionNodes?_eq (catalog : Catalog) (clusterId : Text) (slots : Table Text Nat) :
    functionNodes? catalog parents slots functions =
      some (functionNodes catalog parents clusterId slots functions) := by
  induction functions generalizing slots with
  | nil => rfl
  | cons function functions ih =>
      rcases known function List.mem_cons_self with ⟨parentId, found⟩
      have others := ih fun other member => known other (List.mem_cons_of_mem function member)
      simp only [functionNodes?, functionNodes, parentOf, found, others]
      rfl

theorem functionEdges?_eq (clusterId : Text) :
    functionEdges? parents functions =
      some (functions.map fun (owner, name) =>
        functionEdge (parentOf parents clusterId owner) owner name) := by
  induction functions with
  | nil => rfl
  | cons function functions ih =>
      rcases known function List.mem_cons_self with ⟨parentId, found⟩
      have others := ih fun other member => known other (List.mem_cons_of_mem function member)
      simp only [functionEdges?, List.map_cons, parentOf, found, others]
      rfl

end Known

/-- Every function of a cluster finds its parent, because parents are entered for all owners. -/
theorem drawCluster?_eq (clusterId : Text) (index : Int) (members : List Vertex) (y : Number)
    (catalog : Catalog) :
    drawCluster? clusterId index members y catalog =
      some (drawCluster clusterId index members y catalog) := by
  have known : ∀ function ∈ members.filterMap Vertex.function?,
      ∃ parentId, (parentNodes clusterId members).get? function.1 = some parentId := by
    intro function isFunction
    have occurs : function.1 ∈ occurring members :=
      mem_occurring_iff.2 (.inr ⟨function.2, mem_functions_iff.1 isFunction⟩)
    exact ⟨_, get?_parentNodes clusterId members occurs⟩
  rw [drawCluster?, functionNodes?_eq known catalog clusterId, functionEdges?_eq known clusterId]
  rfl

theorem drawFrom?_eq (catalog : Catalog) (spacing : Number) (start : Nat)
    (clusters : List (List Vertex)) :
    drawFrom? catalog spacing start clusters = some (drawFrom catalog spacing start clusters) := by
  induction clusters generalizing start with
  | nil => rfl
  | cons members clusters ih =>
      rw [drawFrom?, drawCluster?_eq, ih]
      rfl

end ZombieReport

/-! ## The cycle report -/

namespace CycleReport

open ImportAtlas.Digraph

variable {graph : Digraph Text} {settings : Settings}

theorem length_verticesOn_ne_zero (found : graph.findCycles ≠ []) :
    (verticesOn graph.findCycles).length ≠ 0 := by
  rcases List.exists_mem_of_ne_nil _ found with ⟨cycle, reported⟩
  rcases List.exists_mem_of_ne_nil _ (isCycle_of_mem_findCycles reported).2.nonempty with
    ⟨vertex, onCycle⟩
  exact (List.length_pos_of_mem (mem_verticesOn_of_mem reported onCycle)).ne'

theorem ofGraph_eq_error (catalog : Catalog) (found : graph.findCycles ≠ [])
    (notDrawable : ¬ settings.Drawable) :
    ofGraph graph catalog settings = .error .overflow := by
  rw [ofGraph, ofCycles, Diagram.circle_eq_error notDrawable (length_verticesOn_ne_zero found)]
  rfl

theorem names_ne_nil {catalog : Catalog} {cycles : List (List Text)}
    (nonempty : ∀ cycle ∈ cycles, cycle ≠ []) {start : Nat} {group : CycleGroup}
    (isGroup : group ∈ groupsFrom catalog start cycles) : group.names ≠ [] := by
  induction cycles generalizing start with
  | nil => cases isGroup
  | cons cycle cycles ih =>
      cases isGroup with
      | head =>
          intro noName
          exact nonempty cycle List.mem_cons_self (List.map_eq_nil_iff.1 noName)
      | tail _ later =>
          exact ih (fun other member => nonempty other (List.mem_cons_of_mem cycle member)) later

/-- Where there is no node to place, or the circle can be placed, a report is made. -/
theorem exists_ofGraph_named (catalog : Catalog)
    (placeable : graph.findCycles = [] ∨ settings.Drawable) :
    ∃ report, ofGraph graph catalog settings = .ok report ∧
      ∀ group ∈ report.groups, group.names ≠ [] := by
  obtain ⟨positions, placed⟩ : ∃ positions, Diagram.circle (verticesOn graph.findCycles).length
      settings.center.1 settings.center.2 settings.radius = .ok positions := by
    cases placeable with
    | inl noCycle =>
        rw [noCycle]
        exact ⟨[], rfl⟩
    | inr drawable =>
        rcases Diagram.exists_circle drawable (verticesOn graph.findCycles).length with
          ⟨positions, placed, -⟩
        exact ⟨positions, placed⟩
  refine ⟨_, bind_eq_ok_iff.2 ⟨positions, placed, rfl⟩, ?_⟩
  intro group isGroup
  apply names_ne_nil _ isGroup
  intro cycle reported
  exact (isCycle_of_mem_findCycles reported).2.nonempty

end CycleReport

/-! ## All analyses -/

/-- The catalog of records with texts is made. With any catalog their dependency graph has every
record, and their call graph and zombie report are made: all members of a cluster are there to be
deleted, and all functions find their parents. The cycle report on any graph is made, by a search
that passes its checks, and every group in it has a first name, unless there is a cycle to draw and
a number of the circle is out of range. -/
theorem analyses_return {components : List Component}
    (textual : ∀ component ∈ components, component.Textual)
    (named : ∀ component ∈ components, CallGraph.Named component) :
    (∃ catalog, Catalog.ofComponents components = .ok catalog) ∧
    (∀ catalog settings, ∃ graph report,
      (DependencyGraph.ofComponents components catalog).keys =
        (components.map Component.id).eraseDups ∧
      CallGraph.ofComponents components catalog = .ok graph ∧
      ZombieReport.ofComponents components catalog settings = .ok report ∧
      Digraph.collectClusters? (ZombieReport.zombies graph) graph =
        some (ZombieReport.zombieClusters graph) ∧
      ZombieReport.drawFrom? catalog settings.clusterSpacing 0
        (ZombieReport.zombieClusters graph) = some report.diagram) ∧
    ∀ (graph : Digraph Text) (catalog : Catalog) (settings : Settings),
      graph.findCycles? = some graph.findCycles ∧
      (graph.findCycles = [] ∨ settings.Drawable →
        ∃ report, CycleReport.ofGraph graph catalog settings = .ok report ∧
          ∀ group ∈ report.groups, group.names ≠ []) ∧
      (graph.findCycles ≠ [] → ¬ settings.Drawable →
        CycleReport.ofGraph graph catalog settings = .error .overflow) := by
  refine ⟨Catalog.exists_ofComponents textual, ?_, ?_⟩
  · intro catalog settings
    rcases CallGraph.exists_ofComponents named catalog with ⟨graph, built⟩
    exact ⟨graph, _, DependencyGraph.keys_ofComponents components catalog, built,
      ZombieReport.ofComponents_eq_ok built settings,
      Digraph.collectClusters?_eq _ graph, ZombieReport.drawFrom?_eq _ _ _ _⟩
  · intro graph catalog settings
    exact ⟨graph.findCycles?_eq, CycleReport.exists_ofGraph_named catalog,
      CycleReport.ofGraph_eq_error catalog⟩

/-- Records with empty texts, of one identifier, with imports of nothing and with callees that are
not declared, and among them an import cycle. -/
def stubs : List Component :=
  [{ name := .text "", path := .text "", imports := [.text "", .text "./gone", .text "./b"],
     functions := some [.text "f", .text ""],
     calls := some (Table.ofList [("f", [.text "f", .text "undeclared"])]) },
   { name := .text "b", path := .text "b.ts", imports := [.text "./c"] },
   { name := .text "b", path := .text "b.ts", imports := [.text "./gone"] },
   { name := .text "c", path := .text "", imports := [.text "./b"] }]

def stubCycle : List Text := ["b.ts#b", "#c"]

theorem stubs_return :
    (∀ component ∈ stubs, component.Textual) ∧
    (∀ component ∈ stubs, CallGraph.Named component) ∧
    ∃ catalog, Catalog.ofComponents stubs = .ok catalog ∧
      (∃ graph report, CallGraph.ofComponents stubs catalog = .ok graph ∧
        ZombieReport.ofComponents stubs catalog {} = .ok report ∧
        ZombieReport.drawFrom? catalog 400 0 (ZombieReport.zombieClusters graph) =
          some report.diagram) ∧
      (DependencyGraph.ofComponents stubs catalog).findCycles = [stubCycle] ∧
      (DependencyGraph.ofComponents stubs catalog).findCycles? = some [stubCycle] ∧
      ∃ report, CycleReport.ofGraph (DependencyGraph.ofComponents stubs catalog) catalog {} =
        .ok report ∧ ∀ group ∈ report.groups, group.names ≠ [] := by
  have textual : ∀ component ∈ stubs, component.Textual := by decide
  have named : ∀ component ∈ stubs, CallGraph.Named component := by decide +kernel
  rcases analyses_return textual named with ⟨⟨catalog, built⟩, zombies, cycles⟩
  rcases zombies catalog {} with ⟨graph, report, -, graphBuilt, reported, -, drawn⟩
  rcases cycles (DependencyGraph.ofComponents stubs catalog) catalog {} with ⟨checked, returns, -⟩
  have computed : (Catalog.ofComponents stubs).toOption.map
      (fun catalog => (DependencyGraph.ofComponents stubs catalog).findCycles) =
      some [stubCycle] := by
    decide +kernel
  rw [built] at computed
  have found : (DependencyGraph.ofComponents stubs catalog).findCycles = [stubCycle] :=
    Option.some.inj computed
  rw [found] at checked
  exact ⟨textual, named, catalog, built, ⟨graph, report, graphBuilt, reported, drawn⟩, found,
    checked, returns (.inr Settings.drawable_default)⟩

/-- Two components that import each other. -/
def twins : List Component :=
  [{ name := .text "A", path := .text "a.ts", imports := [.text "./b"] },
   { name := .text "B", path := .text "b.ts", imports := [.text "./a"] }]

def twinCycle : List Text := ["a.ts#A", "b.ts#B"]

/-- A circle that is too far to the right for a double. -/
def farSettings : Settings := { center := (.int (Nat.pow 10 309), 300) }

/-- The cycle report on two components that import each other fails where the circle is too far
away. -/
theorem far_circle_overflows :
    (∀ component ∈ twins, component.Textual) ∧
    (∀ component ∈ twins, CallGraph.Named component) ∧
    ∃ catalog, Catalog.ofComponents twins = .ok catalog ∧
      CycleReport.ofGraph (DependencyGraph.ofComponents twins catalog) catalog farSettings =
        .error .overflow := by
  have textual : ∀ component ∈ twins, component.Textual := by decide
  have named : ∀ component ∈ twins, CallGraph.Named component := by decide +kernel
  rcases Catalog.exists_ofComponents textual with ⟨catalog, built⟩
  have computed : (Catalog.ofComponents twins).toOption.map
      (fun catalog => (DependencyGraph.ofComponents twins catalog).findCycles) =
      some [twinCycle] := by
    decide +kernel
  rw [built] at computed
  have found : (DependencyGraph.ofComponents twins catalog).findCycles = [twinCycle] :=
    Option.some.inj computed
  have notDrawable : ¬ farSettings.Drawable := by
    intro drawable
    have outOfRange : ¬ Nat.pow 10 309 < Number.floatBound := by decide +kernel
    rw [Settings.Drawable, farSettings, Number.InRange, Int.natAbs_natCast] at drawable
    exact outOfRange drawable.1
  refine ⟨textual, named, catalog, built, CycleReport.ofGraph_eq_error catalog ?_ notDrawable⟩
  rw [found]
  exact List.cons_ne_nil _ _

end ImportAtlas
