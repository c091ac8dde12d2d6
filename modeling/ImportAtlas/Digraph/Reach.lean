import ImportAtlas.Digraph

/-!
# Entry points and reach

An entry point is a vertex that no edge points to; an edge from a vertex to itself counts. The
reach of some vertices is all that paths of any length lead to from them.
-/

namespace ImportAtlas.Digraph

variable {V : Type} [BEq V]

/-- Of the given vertices those that no edge points to. -/
def entryPoints (vertices : List V) (graph : Digraph V) : List V :=
  let pointedAt := graph.values.flatten
  vertices.filter fun vertex => !pointedAt.contains vertex

/-- The targets of a vertex that have not been reached, the last one first. -/
def unreachedTargets (graph : Digraph V) (reached : List V) (vertex : V) : List V :=
  ((graph.targets vertex).filter fun target => !reached.contains target).reverse

theorem reach_work_lt [EquivBEq V] (graph : Digraph V) {vertex : V} {reached : List V}
    (fresh : reached.contains vertex = false) (waiting : List V) :
    (graph.unreachedTargets (vertex :: reached) vertex ++ waiting).length +
        graph.pending List.length (vertex :: reached) <
      (vertex :: waiting).length + graph.pending List.length reached := by
  have short : (graph.unreachedTargets (vertex :: reached) vertex).length ≤
      (graph.targets vertex).length := by
    simpa [unreachedTargets] using List.length_filter_le _ (graph.targets vertex)
  simp only [List.length_append, List.length_cons]
  cases hasTargets : graph.get? vertex with
  | none =>
      have le := graph.pending_cons_le List.length vertex reached
      simp only [targets, hasTargets, Option.getD_none, List.length_nil] at short
      omega
  | some found =>
      have le := graph.pending_cons_add_le List.length fresh hasTargets
      simp only [targets, hasTargets, Option.getD_some] at short
      omega

/-- Extend what has been reached by all that the waiting vertices lead to. -/
def reachFrom [EquivBEq V] (graph : Digraph V) (waiting reached : List V) : List V :=
  match waiting with
  | [] => reached
  | vertex :: waiting =>
      if _known : reached.contains vertex then reachFrom graph waiting reached
      else
        reachFrom graph (graph.unreachedTargets (vertex :: reached) vertex ++ waiting)
          (vertex :: reached)
termination_by waiting.length + graph.pending List.length reached
decreasing_by
  · simp
  · exact reach_work_lt graph (by simpa using _known) waiting

/-- All vertices that some entry leads to. -/
def reach [EquivBEq V] (entries : List V) (graph : Digraph V) : List V :=
  reachFrom graph entries []

end ImportAtlas.Digraph
