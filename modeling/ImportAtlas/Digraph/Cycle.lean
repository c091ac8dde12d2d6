import ImportAtlas.Digraph

/-!
# Cycles

A depth-first search goes through a graph once, vertices in their order and targets in theirs. An
edge back to a vertex on the active path closes a cycle, which is the part of the path from that
vertex on. Cycles that overlap are reported each on its own.

The search keeps its own stack. Every step either uses up a target or leaves a vertex, and a
vertex is entered only once, so the work that remains is a natural number that goes down.
-/

namespace ImportAtlas.Digraph

variable {V : Type} [BEq V]

/-- A vertex that has been entered and the targets of it that are still to be looked at. -/
structure Frame (V : Type) where
  vertex : V
  remaining : List V

/-- The state of a search. -/
structure Search (V : Type) where
  visited : List V := []
  onStack : List V := []
  /-- The active path, from the root of the search. -/
  path : List V := []
  /-- Entered vertices, innermost first. -/
  stack : List (Frame V) := []
  /-- Cycles in the order in which they were closed. -/
  cycles : List (List V) := []

namespace Search

/-- Enter a vertex. -/
def enter (graph : Digraph V) (search : Search V) (vertex : V) : Search V :=
  { search with
    visited := vertex :: search.visited
    onStack := vertex :: search.onStack
    path := search.path ++ [vertex]
    stack := ⟨vertex, graph.targets vertex⟩ :: search.stack }

/-- The part of a path from the first occurrence of a vertex on. -/
def sliceFrom (vertex : V) (path : List V) : List V :=
  path.dropWhile fun other => !(other == vertex)

/-- Look at one target of the innermost vertex, or leave that vertex if none remains. -/
def step (graph : Digraph V) (search : Search V) : Search V :=
  match search.stack with
  | [] => search
  | ⟨vertex, []⟩ :: frames =>
      { search with
        onStack := search.onStack.erase vertex
        path := search.path.dropLast
        stack := frames }
  | ⟨vertex, target :: remaining⟩ :: frames =>
      let search := { search with stack := ⟨vertex, remaining⟩ :: frames }
      if !search.visited.contains target then search.enter graph target
      else if search.onStack.contains target then
        { search with cycles := search.cycles ++ [sliceFrom target search.path] }
      else search

/-- Work that a vertex brings when it is entered. -/
def entryWork (targets : List V) : Nat := 2 * targets.length + 2

/-- Work left on the stack. -/
def stackWork : List (Frame V) → Nat
  | [] => 0
  | frame :: frames => 2 * frame.remaining.length + 1 + stackWork frames

/-- Work left in a search. -/
def work (graph : Digraph V) (search : Search V) : Nat :=
  graph.pending entryWork search.visited + stackWork search.stack

theorem work_step_lt [EquivBEq V] (graph : Digraph V) (search : Search V)
    (active : search.stack ≠ []) : (search.step graph).work graph < search.work graph := by
  unfold step
  split
  · contradiction
  · rename_i stackIs
    simp [work, stackIs, stackWork]
  · rename_i vertex target remaining frames stackIs
    by_cases known : search.visited.contains target
    · simp only [known, Bool.not_true, Bool.false_eq_true, if_false]
      split <;> simp [work, stackIs, stackWork]
    · simp only [Bool.not_eq_true] at known
      simp only [known, Bool.not_false, if_true, work, enter, stackIs, stackWork,
        List.length_cons]
      cases hasTargets : graph.get? target with
      | none =>
          have le := graph.pending_cons_le entryWork target search.visited
          simp only [targets, hasTargets, Option.getD_none, List.length_nil]
          omega
      | some found =>
          have le := graph.pending_cons_add_le entryWork known hasTargets
          simp only [targets, hasTargets, Option.getD_some]
          simp only [entryWork] at le ⊢
          omega

/-- Go on until every entered vertex has been left. -/
def run [EquivBEq V] (graph : Digraph V) (search : Search V) : Search V :=
  if _active : search.stack = [] then search else run graph (search.step graph)
termination_by search.work graph
decreasing_by exact work_step_lt graph search _active

/-- Search from a root unless it has been visited. -/
def visitRoot [EquivBEq V] (graph : Digraph V) (search : Search V) (root : V) : Search V :=
  if search.visited.contains root then search else (search.enter graph root).run graph

end Search

/-- The search of a whole graph, root by root. -/
def search [EquivBEq V] (graph : Digraph V) : Search V :=
  graph.keys.foldl (Search.visitRoot graph) {}

/-- All cycles that the search closes, in the order in which it closes them. -/
def findCycles [EquivBEq V] (graph : Digraph V) : List (List V) := graph.search.cycles

end ImportAtlas.Digraph
