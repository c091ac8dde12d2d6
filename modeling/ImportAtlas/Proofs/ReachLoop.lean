import ImportAtlas.CallGraph
import ImportAtlas.Proofs.Digraph.Reach
import ImportAtlas.Proofs.Distinct
import Mathlib.Logic.Function.Iterate

/-!
# The loop that finds the reach

A vertex may wait several times, and it counts as reached only when its turn comes. The loop ends
all the same, after no more rounds than there are entries and edges: a round on a vertex that has
been reached uses up one that waits, and a round on a new vertex lets its targets wait, which no
other round does again. What has been reached in the end is what paths lead to from the entries, so
it does not show in which order entries and targets were listed.
-/

namespace ImportAtlas.Digraph

/-- The loop between two rounds: vertices that wait for their turn, and those reached so far. -/
structure ReachState (V : Type) where
  waiting : List V
  reached : List V

variable {V : Type} [BEq V]

namespace ReachState

/-- One round, which does nothing when no vertex waits. -/
def step (graph : Digraph V) (state : ReachState V) : ReachState V :=
  match state.waiting with
  | [] => state
  | vertex :: waiting =>
      if state.reached.contains vertex then ⟨waiting, state.reached⟩
      else
        ⟨graph.unreachedTargets (vertex :: state.reached) vertex ++ waiting,
          vertex :: state.reached⟩

variable [EquivBEq V]

/-- The rounds that the loop still has to go are bounded by what waits and by the targets of what
has not been reached. -/
theorem exists_rounds (graph : Digraph V) (waiting reached : List V) :
    ∃ rounds ≤ waiting.length + graph.pending List.length reached,
      (step graph)^[rounds] ⟨waiting, reached⟩ = ⟨[], graph.reachFrom waiting reached⟩ := by
  induction waiting, reached using reachFrom.induct graph with
  | case1 reached =>
      refine ⟨0, Nat.zero_le _, ?_⟩
      rw [reachFrom]
      rfl
  | case2 reached vertex waiting known ih =>
      obtain ⟨rounds, bound, ended⟩ := ih
      have passed : step graph ⟨vertex :: waiting, reached⟩ = ⟨waiting, reached⟩ := if_pos known
      refine ⟨rounds + 1, ?_, ?_⟩
      · rw [List.length_cons]
        omega
      · rw [Function.iterate_succ_apply, passed, ended, reachFrom, dif_pos known]
  | case3 reached vertex waiting fresh ih =>
      obtain ⟨rounds, bound, ended⟩ := ih
      have marked : step graph ⟨vertex :: waiting, reached⟩ =
          ⟨graph.unreachedTargets (vertex :: reached) vertex ++ waiting, vertex :: reached⟩ :=
        if_neg fresh
      have less := graph.reach_work_lt (Bool.not_eq_true _ ▸ fresh) waiting
      refine ⟨rounds + 1, by omega, ?_⟩
      rw [Function.iterate_succ_apply, marked, ended, reachFrom, dif_neg fresh]

end ReachState

/-- Where nothing has been visited, all edges are pending. -/
theorem pending_nil (graph : Digraph V) : graph.pending List.length [] = graph.edgeCount := by
  have counted : ∀ entries : List (V × List V),
      pendingOf List.length [] entries = (entries.map Prod.snd).flatten.length := by
    intro entries
    induction entries with
    | nil => rfl
    | cons entry rest ih => simp [pendingOf, ih]
  exact counted graph.entries

/-- Two graphs whose target lists differ only in their order have the same edges. -/
theorem edge_eq_of_perm {left right : Digraph V}
    (reordered : ∀ vertex, (left.targets vertex).Perm (right.targets vertex)) :
    left.Edge = right.Edge := by
  funext source target
  rw [Edge, Edge, (reordered source).contains_eq]

variable [EquivBEq V]

/-- A vertex is reached only once. -/
theorem distinct_reachFrom (graph : Digraph V) (waiting : List V) {reached : List V}
    (distinct : Distinct reached) : Distinct (graph.reachFrom waiting reached) := by
  induction waiting, reached using reachFrom.induct graph with
  | case1 reached =>
      rw [reachFrom]
      exact distinct
  | case2 reached vertex waiting known ih =>
      rw [reachFrom, dif_pos known]
      exact ih distinct
  | case3 reached vertex waiting fresh ih =>
      rw [reachFrom, dif_neg fresh]
      apply ih
      apply List.Pairwise.cons
      · intro other member
        cases equal : vertex == other with
        | false => rfl
        | true =>
            apply absurd _ fresh
            exact List.contains_iff_exists_mem_beq.2 ⟨other, member, equal⟩
      · exact distinct

/-- The reach depends on nothing but which vertices are entries and which edges there are. -/
theorem contains_reach_congr {entries others : List V} {left right : Digraph V}
    (sameEntries : ∀ vertex, vertex ∈ entries ↔ vertex ∈ others)
    (sameEdges : left.Edge = right.Edge) (vertex : V) :
    (reach entries left).contains vertex = (reach others right).contains vertex := by
  rw [Bool.eq_iff_iff, contains_reach_iff, contains_reach_iff]
  simp only [sameEntries, Leads, sameEdges]

/-- The loop ends, and what it has reached then, each vertex once, is what paths of any length lead
to from an entry. So the targets of what is reached are reached, and the order of the entries and
of the target lists does not matter. -/
theorem reach_is_closure (entries : List Vertex) (graph : Digraph Vertex) :
    (∃ rounds ≤ entries.length + graph.edgeCount,
      (ReachState.step graph)^[rounds] ⟨entries, []⟩ = ⟨[], reach entries graph⟩) ∧
    Distinct (reach entries graph) ∧
    (∀ vertex, (reach entries graph).contains vertex = true ↔
      ∃ entry ∈ entries, graph.Leads entry vertex) ∧
    (∀ source target, (reach entries graph).contains source = true → graph.Edge source target →
      (reach entries graph).contains target = true) ∧
    ∀ (others : List Vertex) (reordered : Digraph Vertex), entries.Perm others →
      (∀ vertex, (graph.targets vertex).Perm (reordered.targets vertex)) →
      ∀ vertex,
        (reach entries graph).contains vertex = (reach others reordered).contains vertex := by
  refine ⟨?_, ?_, fun vertex => contains_reach_iff, ?_, ?_⟩
  · rw [← pending_nil]
    exact ReachState.exists_rounds graph entries []
  · exact distinct_reachFrom graph entries .nil
  · intro source target isReached edge
    rw [contains_reach_iff] at isReached ⊢
    obtain ⟨entry, isEntry, leads⟩ := isReached
    exact ⟨entry, isEntry, leads.tail edge⟩
  · intro others reordered sameEntries sameTargets vertex
    exact contains_reach_congr (fun _ => sameEntries.mem_iff) (edge_eq_of_perm sameTargets) vertex

/-- An entry that is listed twice, one that is no key, and a target that is none. -/
example :
    reach (V := Vertex) [.component "a", .component "x", .component "a"]
      (Table.ofList
        [(.component "a", [.component "b", .component "y"]),
         (.component "b", [.component "a", .component "b"]),
         (.component "c", [.component "a"])]) =
      [.component "x", .component "b", .component "y", .component "a"] := by
  decide +kernel

end ImportAtlas.Digraph
