import ImportAtlas.Proofs.Digraph.Cover
import ImportAtlas.Proofs.Digraph.Reach
import Mathlib.Data.Set.Finite.Basic

/-!
# Stranded vertices

The vertices of a graph that are in the reach of no entry point are stranded. They can be got to
only from each other, and what keeps them so are cycles.
-/

namespace ImportAtlas.Digraph

variable {V : Type} [BEq V]

/-- A vertex of the graph that no path leads to from a vertex without incoming edges. -/
structure Stranded (graph : Digraph V) (vertex : V) : Prop where
  known : graph.keys.contains vertex = true
  unreachable : ∀ entry, graph.IsEntry entry → ¬ graph.Leads entry vertex

variable [EquivBEq V] {graph : Digraph V}

/-- The stranded vertices are those that the reach of the entry points leaves out. -/
theorem stranded_iff {vertex : V} :
    graph.Stranded vertex ↔ graph.keys.contains vertex = true ∧
      (reach (entryPoints graph.keys graph) graph).contains vertex = false := by
  constructor
  · intro stranded
    refine ⟨stranded.known, ?_⟩
    rw [Bool.eq_false_iff, Ne, contains_reach_iff]
    rintro ⟨entry, isEntryPoint, leads⟩
    exact stranded.unreachable entry (mem_entryPoints_iff.1 isEntryPoint).2 leads
  · rintro ⟨known, missed⟩
    refine ⟨known, ?_⟩
    intro entry isEntry leads
    -- An entry that leads to a vertex of the graph is one itself: it is that vertex or has an edge.
    have entryKnown : graph.keys.contains entry = true := by
      rcases leads with equal | path
      · rw [List.contains_congr equal]
        exact known
      · obtain ⟨next, edge, -⟩ := Relation.TransGen.head'_iff.1 path
        exact edge.source_known
    obtain ⟨key, isKey, equal⟩ := List.contains_iff_exists_mem_beq.1 entryKnown
    rw [Bool.eq_false_iff, Ne, contains_reach_iff] at missed
    have keyLeads : graph.Leads key vertex := .trans (.inl (BEq.symm equal)) leads
    exact missed ⟨key, mem_entryPoints_iff.2 ⟨isKey, isEntry.congr equal⟩, keyLeads⟩

namespace Stranded

variable {source target : V}

/-- What points to a stranded vertex is stranded. -/
theorem of_edge (stranded : graph.Stranded target) (edge : graph.Edge source target) :
    graph.Stranded source where
  known := edge.source_known
  unreachable := fun entry isEntry leads => stranded.unreachable entry isEntry (leads.tail edge)

/-- What leads to a stranded vertex is stranded, if it is a vertex of the graph. -/
theorem of_leads (stranded : graph.Stranded target) (known : graph.keys.contains source = true)
    (leads : graph.Leads source target) : graph.Stranded source where
  known := known
  unreachable := fun entry isEntry reaches =>
    stranded.unreachable entry isEntry (reaches.trans leads)

/-- Some stranded vertex points to each stranded vertex. -/
theorem exists_edge (stranded : graph.Stranded target) :
    ∃ source, graph.Edge source target ∧ graph.Stranded source := by
  by_contra noEdge
  apply stranded.unreachable target _ (.refl graph target)
  intro source edge
  exact noEdge ⟨source, edge, stranded.of_edge edge⟩

end Stranded

/-- Every stranded vertex is led to by a reported cycle of stranded vertices: going back from it
along edges one never comes to a start, so one comes to a cycle. -/
theorem Stranded.exists_cycle {V : Type} [BEq V] [LawfulBEq V] {graph : Digraph V} {vertex : V}
    (stranded : graph.Stranded vertex) :
    ∃ cycle ∈ graph.findCycles, ∀ member ∈ cycle,
      graph.Leads member vertex ∧ graph.Stranded member := by
  let sources := { source | graph.Stranded source ∧ graph.Leads source vertex }
  have finite : sources.Finite := by
    apply (List.finite_toSet graph.keys).subset
    intro source isSource
    exact List.contains_iff_mem.1 isSource.1.known
  have entered : ∀ target ∈ sources, ∃ source ∈ sources, graph.Edge source target := by
    rintro target ⟨isStranded, leads⟩
    obtain ⟨source, edge, sourceStranded⟩ := isStranded.exists_edge
    exact ⟨source, ⟨sourceStranded, (Leads.of_edge edge).trans leads⟩, edge⟩
  obtain ⟨cycle, reported, source, -, target, ⟨isStranded, leads⟩, isClosing⟩ :=
    exists_closing_of_each_entered finite ⟨vertex, stranded, .refl graph vertex⟩ entered
  have isCycle := (isCycle_of_mem_findCycles reported).2
  have onCycle : target ∈ cycle := List.mem_of_head? (closingEdge?_eq_some.1 isClosing).2
  refine ⟨cycle, reported, ?_⟩
  intro member isMember
  have toTarget := isCycle.leads isMember onCycle
  refine ⟨toTarget.trans leads, isStranded.of_leads ?_ toTarget⟩
  obtain ⟨next, follows⟩ := Follows.exists_of_mem isMember
  exact (isCycle.edge follows).source_known

end ImportAtlas.Digraph
