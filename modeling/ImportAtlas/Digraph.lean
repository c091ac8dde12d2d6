import ImportAtlas.Table

/-!
# Directed graphs

A graph is a table from vertices to the vertices that they point to. A target need not be a
vertex of its own; it then has no targets.
-/

namespace ImportAtlas

/-- A directed graph with ordered vertices and ordered targets. -/
abbrev Digraph (V : Type) [BEq V] := Table V (List V)

namespace Digraph

variable {V : Type} [BEq V]

/-- The vertices that a vertex points to. -/
def targets (graph : Digraph V) (vertex : V) : List V := (graph.get? vertex).getD []

/-- Number of edges, repeated ones counted. -/
def edgeCount (graph : Digraph V) : Nat := graph.values.flatten.length

/-- One vertex points to another. Vertices that count as equal have the same edges. -/
def Edge (graph : Digraph V) (source target : V) : Prop :=
  (graph.targets source).contains target = true

/-- Vertices with neither incoming nor outgoing edges. -/
def isolated (graph : Digraph V) : List V :=
  let connected := graph.entries.flatMap fun (source, targets) =>
    if targets.isEmpty then [] else source :: targets
  graph.keys.filter fun vertex => !connected.contains vertex

/-- Weight of the entries whose keys have not been visited, where a vertex weighs `weight` of its
targets. -/
def pendingOf (weight : List V → Nat) (visited : List V) : List (V × List V) → Nat
  | [] => 0
  | entry :: rest =>
      if visited.contains entry.1 then pendingOf weight visited rest
      else weight entry.2 + pendingOf weight visited rest

/-- Weight of the vertices that have not been visited. -/
def pending (graph : Digraph V) (weight : List V → Nat) (visited : List V) : Nat :=
  pendingOf weight visited graph.entries

theorem contains_of_contains {visited : List V} {vertex other : V}
    (member : visited.contains other = true) : (vertex :: visited).contains other = true := by
  simp only [List.contains_cons, member, Bool.or_true]

/-- Visiting a vertex never adds to the pending weight. -/
theorem pendingOf_cons_le (weight : List V → Nat) (vertex : V) (visited : List V)
    (entries : List (V × List V)) :
    pendingOf weight (vertex :: visited) entries ≤ pendingOf weight visited entries := by
  induction entries with
  | nil => exact Nat.le_refl 0
  | cons entry rest ih =>
      by_cases old : visited.contains entry.1
      · simp only [pendingOf, contains_of_contains old, old, if_true]
        exact ih
      · simp only [pendingOf, old, Bool.false_eq_true, if_false]
        split
        · exact Nat.le_trans ih (Nat.le_add_left _ _)
        · exact Nat.add_le_add_left ih _

theorem pending_cons_le (graph : Digraph V) (weight : List V → Nat) (vertex : V)
    (visited : List V) : graph.pending weight (vertex :: visited) ≤ graph.pending weight visited :=
  pendingOf_cons_le weight vertex visited graph.entries

/-- Visiting a new vertex takes the weight of its targets off the pending weight. -/
theorem pendingOf_cons_add_le [EquivBEq V] (weight : List V → Nat) {vertex : V}
    {visited : List V} {found : V × List V} (fresh : visited.contains vertex = false)
    (equal : (found.1 == vertex) = true) (entries : List (V × List V))
    (member : found ∈ entries) :
    pendingOf weight (vertex :: visited) entries + weight found.2 ≤
      pendingOf weight visited entries := by
  induction entries with
  | nil => simp at member
  | cons entry rest ih =>
      rcases List.mem_cons.1 member with rfl | member
      · have new : (vertex :: visited).contains found.1 = true := by simp [equal]
        have old : visited.contains found.1 = false := by
          rw [List.contains_congr equal]
          exact fresh
        have rest_le := pendingOf_cons_le weight vertex visited rest
        simp only [pendingOf, new, old, if_true, Bool.false_eq_true, if_false]
        omega
      · have step := ih member
        by_cases old : visited.contains entry.1
        · simp only [pendingOf, contains_of_contains old, old, if_true]
          exact step
        · simp only [pendingOf, old, Bool.false_eq_true, if_false]
          split <;> omega

/-- The targets of a new vertex are part of the pending weight that visiting it takes off. -/
theorem pending_cons_add_le [EquivBEq V] (graph : Digraph V) (weight : List V → Nat)
    {vertex : V} {visited : List V} (fresh : visited.contains vertex = false)
    {found : List V} (hasTargets : graph.get? vertex = some found) :
    graph.pending weight (vertex :: visited) + weight found ≤ graph.pending weight visited := by
  unfold Table.get? at hasTargets
  obtain ⟨entry, isFound, rfl⟩ := Option.map_eq_some_iff.1 hasTargets
  exact pendingOf_cons_add_le weight fresh (by simpa using List.find?_some isFound)
    graph.entries (List.mem_of_find?_eq_some isFound)

end Digraph

end ImportAtlas
