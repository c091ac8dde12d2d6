import ImportAtlas.Proofs.Digraph.Stranded

/-!
# Graphs with the same vertices and edges

A graph lists its vertices and their targets in some order, which shows in the order in which
cycles and clusters are found. Whether there are cycles, and which vertices are entries or
stranded, depends on the vertices and the edges alone.
-/

namespace ImportAtlas.Digraph

variable {V : Type} [BEq V]

/-- Two graphs with the same vertices and edges, whatever their order. -/
structure Alike (left right : Digraph V) : Prop where
  keys : ∀ vertex, left.keys.contains vertex = true ↔ right.keys.contains vertex = true
  edge : ∀ source target, left.Edge source target ↔ right.Edge source target

namespace Alike

variable {left right : Digraph V}

theorem edge_eq (alike : Alike left right) : left.Edge = right.Edge := by
  funext source target
  exact propext (alike.edge source target)

theorem isEntry_iff (alike : Alike left right) (vertex : V) :
    left.IsEntry vertex ↔ right.IsEntry vertex := by
  rw [IsEntry, IsEntry, alike.edge_eq]

theorem leads_iff (alike : Alike left right) (source target : V) :
    left.Leads source target ↔ right.Leads source target := by
  rw [Leads, Leads, alike.edge_eq]

theorem isCycle_iff (alike : Alike left right) (walk : List V) :
    left.IsCycle walk ↔ right.IsCycle walk := by
  constructor
  · intro isCycle
    exact ⟨isCycle.nonempty, fun follows => (alike.edge _ _).1 (isCycle.edge follows)⟩
  · intro isCycle
    exact ⟨isCycle.nonempty, fun follows => (alike.edge _ _).2 (isCycle.edge follows)⟩

theorem stranded_iff (alike : Alike left right) (vertex : V) :
    left.Stranded vertex ↔ right.Stranded vertex := by
  constructor
  · intro stranded
    refine ⟨(alike.keys vertex).1 stranded.known, ?_⟩
    intro entry isEntry leads
    exact stranded.unreachable entry ((alike.isEntry_iff entry).2 isEntry)
      ((alike.leads_iff entry vertex).2 leads)
  · intro stranded
    refine ⟨(alike.keys vertex).2 stranded.known, ?_⟩
    intro entry isEntry leads
    exact stranded.unreachable entry ((alike.isEntry_iff entry).1 isEntry)
      ((alike.leads_iff entry vertex).1 leads)

/-- Cycles are found in both graphs or in neither. -/
theorem findCycles_eq_nil_iff [LawfulBEq V] (alike : Alike left right) :
    left.findCycles = [] ↔ right.findCycles = [] := by
  rw [Digraph.findCycles_eq_nil_iff, Digraph.findCycles_eq_nil_iff, Acyclic, Acyclic]
  simp only [alike.isCycle_iff]

/-- The entry points of both graphs are the same. -/
theorem contains_entryPoints [EquivBEq V] (alike : Alike left right) (vertex : V) :
    (entryPoints left.keys left).contains vertex =
      (entryPoints right.keys right).contains vertex := by
  rw [Bool.eq_iff_iff, contains_entryPoints_iff, contains_entryPoints_iff, alike.keys,
    alike.isEntry_iff]

end Alike

end ImportAtlas.Digraph
