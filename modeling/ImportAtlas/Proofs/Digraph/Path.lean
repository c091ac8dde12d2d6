import ImportAtlas.Digraph
import ImportAtlas.Proofs.Table
import Mathlib.Logic.Relation

/-!
# Edges and paths

The vocabulary in which the analyses of graphs are specified. Vertices are compared as the
graph compares its keys, which may be coarser than identity: a vertex has the edges of every
vertex that counts as equal to it, and a path without edges joins vertices that count as equal.
-/

namespace ImportAtlas.Digraph

variable {V : Type} [BEq V]

/-! ## Edges -/

section Edges

variable [EquivBEq V] {graph : Digraph V}

theorem targets_congr (graph : Digraph V) {left right : V} (equal : (left == right) = true) :
    graph.targets left = graph.targets right := by
  unfold targets
  rw [graph.get?_congr equal]

theorem targets_of_mem {entry : V × List V} (member : entry ∈ graph.entries) {vertex : V}
    (equal : (entry.1 == vertex) = true) : graph.targets vertex = entry.2 := by
  unfold targets
  rw [Table.get?_of_mem member equal]
  rfl

theorem targets_eq_nil {vertex : V} (unknown : graph.keys.contains vertex = false) :
    graph.targets vertex = [] := by
  unfold targets
  cases found : graph.get? vertex with
  | none => rfl
  | some targets =>
      rw [Table.contains_keys_iff.2 ⟨targets, found⟩] at unknown
      cases unknown

theorem Edge.congr {source target otherSource otherTarget : V}
    (edge : graph.Edge source target) (sourcesEqual : (source == otherSource) = true)
    (targetsEqual : (target == otherTarget) = true) : graph.Edge otherSource otherTarget := by
  unfold Edge at edge ⊢
  rw [← graph.targets_congr sourcesEqual, ← List.contains_congr targetsEqual]
  exact edge

/-- Only keys have outgoing edges. -/
theorem Edge.source_known {source target : V} (edge : graph.Edge source target) :
    graph.keys.contains source = true := by
  cases known : graph.keys.contains source with
  | true => rfl
  | false =>
      unfold Edge at edge
      rw [targets_eq_nil known] at edge
      simp at edge

/-- The target lists of a table hold exactly what edges point to. -/
theorem contains_flatten_values (graph : Digraph V) (target : V) :
    graph.values.flatten.contains target = true ↔ ∃ source, graph.Edge source target := by
  constructor
  · intro pointedAt
    rw [List.contains_iff_exists_mem_beq] at pointedAt
    obtain ⟨other, member, equal⟩ := pointedAt
    obtain ⟨targets, listed, inTargets⟩ := List.mem_flatten.1 member
    obtain ⟨entry, entryMember, rfl⟩ := List.mem_map.1 listed
    refine ⟨entry.1, ?_⟩
    unfold Edge
    rw [targets_of_mem entryMember (BEq.refl entry.1), List.contains_iff_exists_mem_beq]
    exact ⟨other, inTargets, equal⟩
  · rintro ⟨source, edge⟩
    obtain ⟨targets, found⟩ := Table.contains_keys_iff.1 edge.source_known
    obtain ⟨entry, entryMember, -, rfl⟩ := Table.exists_entry_of_get? found
    have inTargets : entry.2.contains target = true := by
      simpa [Edge, Digraph.targets, found] using edge
    obtain ⟨other, member, equal⟩ := List.contains_iff_exists_mem_beq.1 inTargets
    rw [List.contains_iff_exists_mem_beq]
    exact ⟨other, List.mem_flatten.2 ⟨entry.2, List.mem_map_of_mem entryMember, member⟩, equal⟩

end Edges

/-- Where equality is identity, edges are the listed targets. -/
theorem edge_iff_mem [LawfulBEq V] {graph : Digraph V} {source target : V} :
    graph.Edge source target ↔ target ∈ graph.targets source :=
  List.contains_iff_mem

/-! ## Paths -/

/-- Some path of zero or more edges leads from one vertex to another. -/
def Leads (graph : Digraph V) (source target : V) : Prop :=
  (source == target) = true ∨ Relation.TransGen graph.Edge source target

namespace Leads

variable {graph : Digraph V} {source middle target : V}

theorem of_edge (edge : graph.Edge source target) : graph.Leads source target :=
  .inr (.single edge)

/-- Whatever holds of a vertex, of those that count as equal to it and of all that its edges
reach in turn holds wherever it leads. -/
theorem induct (property : V → Prop) (leads : graph.Leads source target)
    (respects : ∀ {left right}, (left == right) = true → property left → property right)
    (step : ∀ {left right}, graph.Edge left right → property left → property right)
    (start : property source) : property target := by
  rcases leads with equal | path
  · exact respects equal start
  · induction path with
    | single edge => exact step edge start
    | tail _ edge ih => exact step edge ih

variable [EquivBEq V]

theorem refl (graph : Digraph V) (vertex : V) : graph.Leads vertex vertex :=
  .inl (BEq.refl vertex)

/-- Go one edge further at the end. -/
theorem tail (leads : graph.Leads source middle) (edge : graph.Edge middle target) :
    graph.Leads source target := by
  rcases leads with equal | path
  · exact .inr (.single (edge.congr (BEq.symm equal) (BEq.refl target)))
  · exact .inr (path.tail edge)

theorem congr_right (leads : graph.Leads source middle) (equal : (middle == target) = true) :
    graph.Leads source target := by
  rcases leads with sourceEqual | path
  · exact .inl (BEq.trans sourceEqual equal)
  · obtain ⟨before, leadsBefore, edge⟩ := Relation.TransGen.tail'_iff.1 path
    exact .inr (.tail' leadsBefore (edge.congr (BEq.refl before) equal))

theorem trans (first : graph.Leads source middle) (second : graph.Leads middle target) :
    graph.Leads source target := by
  apply second.induct (graph.Leads source)
  · intro left right equal leads
    exact leads.congr_right equal
  · intro left right edge leads
    exact leads.tail edge
  · exact first

end Leads

end ImportAtlas.Digraph
