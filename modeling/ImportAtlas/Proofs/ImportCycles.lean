import ImportAtlas.Proofs.Digraph.Cover
import ImportAtlas.Proofs.Digraph.Events
import ImportAtlas.Proofs.Digraph.Once
import ImportAtlas.Proofs.Digraph.Recursion
import ImportAtlas.Text

/-!
# Cycles of import graphs

What the search for cycles reports on graphs whose vertices are texts: every reported list is an
elementary cycle, none is reported twice, the reported ones meet all others, and they are those that
the recursive search records. The books that the search keeps agree in every round.
-/

namespace ImportAtlas.ImportCycles

open ImportAtlas.Digraph

/-- Every reported list is an elementary cycle: it is not empty, it repeats no vertex, and each
of its vertices, the last included, has the next one going round among its targets. -/
theorem reported_isElementary (graph : Digraph Text) {cycle : List Text}
    (reported : cycle ∈ graph.findCycles) :
    cycle ≠ [] ∧ cycle.Nodup ∧
      ∀ position, position < cycle.length → ∃ source target targets,
        cycle[position]? = some source ∧
        cycle[(position + 1) % cycle.length]? = some target ∧
        graph.get? source = some targets ∧ target ∈ targets := by
  obtain ⟨nodup, isCycle⟩ := isCycle_of_mem_findCycles reported
  refine ⟨isCycle.nonempty, nodup, ?_⟩
  intro position inside
  have nextInside : (position + 1) % cycle.length < cycle.length := Nat.mod_lt _ (by omega)
  have isSource := List.getElem?_eq_getElem inside
  have isTarget := List.getElem?_eq_getElem nextInside
  have edge := isCycle.edge ⟨position, isSource, isTarget⟩
  obtain ⟨targets, found⟩ := Table.contains_keys_iff.1 edge.source_known
  refine ⟨_, _, targets, isSource, isTarget, found, ?_⟩
  rw [edge_iff_mem] at edge
  simpa [Digraph.targets, found] using edge

/-- A cycle through three vertices, one of which also points to itself, and an edge that leads
nowhere. -/
def knot : Digraph Text := Table.ofList [("a", ["b", "x"]), ("b", ["c", "b"]), ("c", ["a"])]

theorem knot_isElementary :
    (["a", "b", "c"] : List Text) ∈ knot.findCycles ∧
    ∀ position, position < 3 → ∃ source target targets,
      (["a", "b", "c"] : List Text)[position]? = some source ∧
      (["a", "b", "c"] : List Text)[(position + 1) % 3]? = some target ∧
      knot.get? source = some targets ∧ target ∈ targets := by
  have reported : (["a", "b", "c"] : List Text) ∈ knot.findCycles := by decide +kernel
  exact ⟨reported, (reported_isElementary knot reported).2.2⟩

/-- The closing edges of the reported cycles meet every cycle of the graph. Deleting them leaves
a graph without cycles, and nothing is reported exactly if there is no cycle. -/
theorem closingEdges_meet_every_cycle (graph : Digraph Text) :
    (∀ walk, graph.IsCycle walk →
      ∃ cycle ∈ graph.findCycles, ∃ source target,
        closingEdge? cycle = some (source, target) ∧ Follows walk source target) ∧
    (graph.without (graph.findCycles.filterMap closingEdge?)).Acyclic ∧
    (graph.findCycles = [] ↔ graph.Acyclic) :=
  ⟨fun _ isCycle => isCycle.exists_closing, graph.acyclic_without_closing,
    graph.findCycles_eq_nil_iff⟩

/-- The search with a stack reports the cycles that the recursive search records, in the order in
which it records them. -/
theorem reported_as_by_recursion (graph : Digraph Text) :
    graph.findCycles = graph.visitAll.cycles := by
  rw [findCycles, search_eq_resume_visitAll, Search.resume]

example : knot.visitAll.cycles = ([["a", "b", "c"], ["b"]] : List (List Text)) := by
  decide +kernel

/-- Where no vertex lists a target twice, no reported cycle is a rotation of another one, and every
one is closed by an edge that closes no other. -/
theorem reported_once (graph : Digraph Text) (simple : graph.Simple) :
    graph.findCycles.Pairwise (fun first second => ¬ first.IsRotated second) ∧
    (∀ cycle ∈ graph.findCycles, ∃ source target,
      closingEdge? cycle = some (source, target) ∧ graph.Edge source target) ∧
    (graph.findCycles.map closingEdge?).Nodup :=
  ⟨cycles_not_rotated simple, fun _ reported => exists_closingEdge reported,
    nodup_closingEdges simple⟩

/-- Four cycles, three of them through one vertex, and one of these round the vertices of two
others. -/
def clover : Digraph Text := Table.ofList
  [("hub", ["left", "right"]), ("left", ["hub", "far"]), ("far", ["hub", "left"]),
   ("right", ["hub"])]

def cloverCycles : List (List Text) :=
  [["hub", "left"], ["hub", "left", "far"], ["left", "far"], ["hub", "right"]]

theorem clover_reported_once :
    clover.Simple ∧ clover.findCycles = cloverCycles ∧
    cloverCycles.Pairwise (fun first second => ¬ first.IsRotated second) ∧
    (cloverCycles.map closingEdge?).Nodup := by
  have simple : clover.Simple := by
    unfold Simple
    decide
  have found : clover.findCycles = cloverCycles := by decide +kernel
  have once := reported_once clover simple
  rw [found] at once
  exact ⟨simple, found, once.1, once.2.2⟩

/-- A target that is listed twice closes the same cycle twice. -/
example : findCycles (V := Text) (Table.ofList [("a", ["a", "a"])]) =
    ([["a"], ["a"]] : List (List Text)) := by
  decide +kernel

/-- The search takes the keys for roots, one after the other, and its books agree in every round
under every root that it starts from. So no step lacks the vertex that it takes off the path or
looks for there, and the rounds come to an end with nothing on the path. Altogether every key and
every target is entered once, and every entry of a target list is examined once. -/
theorem search_keeps_in_step (graph : Digraph Text) :
    graph.search = graph.searchFrom graph.keys ∧
    (∀ earlier root later, graph.keys = earlier ++ root :: later →
      root ∉ (graph.searchFrom earlier).visited →
      (∀ rounds, (graph.underRoot earlier root rounds).InStep graph ∧
        (graph.underRoot earlier root rounds).step? graph =
          some (graph.underRoot earlier root (rounds + 1))) ∧
      ∃ rounds, graph.underRoot earlier root rounds = graph.searchFrom (earlier ++ [root]) ∧
        (graph.underRoot earlier root rounds).stack = [] ∧
        (graph.underRoot earlier root rounds).path = [] ∧
        (graph.underRoot earlier root rounds).onStack = []) ∧
    (graph.events.filterMap Event.entered?).Perm
      (graph.keys ++ graph.values.flatten).eraseDups ∧
    (graph.events.filterMap Event.examined?).Perm graph.listed := by
  refine ⟨rfl, ?_, graph.perm_entered, graph.perm_examined⟩
  intro earlier root later _ fresh
  constructor
  · intro rounds
    have coherent := coherent_underRoot fresh rounds
    refine ⟨coherent.inStep, ?_⟩
    rw [Search.step?_eq coherent, underRoot, underRoot, Function.iterate_succ_apply']
  · obtain ⟨rounds, ended⟩ := exists_rounds_underRoot fresh
    have idle : (graph.underRoot earlier root rounds).stack = [] := by
      rw [ended]
      exact Search.stack_visitRoots (earlier ++ [root]) rfl
    exact ⟨rounds, ended, idle, (coherent_underRoot fresh rounds).path_eq_nil idle⟩

/-- The knot is searched from one root, in four entries and five looks at a target. -/
example : knot.events = ([
    .entered "a", .examined ⟨"a", 0, "b"⟩,
    .entered "b", .examined ⟨"b", 0, "c"⟩,
    .entered "c", .examined ⟨"c", 0, "a"⟩,
    .examined ⟨"b", 1, "b"⟩, .examined ⟨"a", 1, "x"⟩,
    .entered "x"] : List (Event Text)) := by
  decide +kernel

end ImportAtlas.ImportCycles
