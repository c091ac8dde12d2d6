import ImportAtlas.Digraph.Reach
import ImportAtlas.Proofs.Digraph.Path

/-!
# Reach and entry points

The entry points are the vertices that no edge points to, and the reach of some vertices is what
paths lead to from them.
-/

namespace ImportAtlas.Digraph

variable {V : Type} [BEq V]

/-- No edge points to a vertex. -/
def IsEntry (graph : Digraph V) (vertex : V) : Prop := ∀ source, ¬ graph.Edge source vertex

variable [EquivBEq V] {graph : Digraph V}

theorem IsEntry.congr {left right : V} (isEntry : graph.IsEntry left)
    (equal : (left == right) = true) : graph.IsEntry right :=
  fun source edge => isEntry source (edge.congr (BEq.refl source) (BEq.symm equal))

theorem mem_entryPoints_iff {vertices : List V} {vertex : V} :
    vertex ∈ entryPoints vertices graph ↔ vertex ∈ vertices ∧ graph.IsEntry vertex := by
  unfold entryPoints IsEntry
  rw [List.mem_filter, Bool.not_eq_true', ← Bool.not_eq_true, contains_flatten_values, not_exists]

theorem contains_entryPoints_iff {vertices : List V} {vertex : V} :
    (entryPoints vertices graph).contains vertex = true ↔
      vertices.contains vertex = true ∧ graph.IsEntry vertex := by
  rw [List.contains_iff_exists_mem_beq, List.contains_iff_exists_mem_beq]
  constructor
  · rintro ⟨other, member, equal⟩
    rcases mem_entryPoints_iff.1 member with ⟨isVertex, isEntry⟩
    exact ⟨⟨other, isVertex, equal⟩, isEntry.congr (BEq.symm equal)⟩
  · rintro ⟨⟨other, isVertex, equal⟩, isEntry⟩
    exact ⟨other, mem_entryPoints_iff.2 ⟨isVertex, isEntry.congr equal⟩, equal⟩

/-! ## The reach is what paths lead to -/

theorem edge_of_mem_unreachedTargets {reached : List V} {vertex target : V}
    (member : target ∈ graph.unreachedTargets reached vertex) : graph.Edge vertex target := by
  unfold unreachedTargets at member
  rw [List.mem_reverse, List.mem_filter] at member
  exact List.elem_eq_true_of_mem member.1

/-- A target has been reached or is about to wait. -/
theorem contains_of_edge {vertex target : V} (edge : graph.Edge vertex target) (reached : List V) :
    reached.contains target = true ∨
      (graph.unreachedTargets reached vertex).contains target = true := by
  obtain ⟨other, isTarget, equal⟩ := List.contains_iff_exists_mem_beq.1 edge
  cases known : reached.contains other with
  | true =>
      rw [List.contains_congr equal]
      exact .inl known
  | false =>
      right
      rw [List.contains_iff_exists_mem_beq]
      refine ⟨other, ?_, equal⟩
      unfold unreachedTargets
      rw [List.mem_reverse, List.mem_filter, known]
      exact ⟨isTarget, rfl⟩

/-- Nothing is reached but what was or what a waiting vertex leads to. -/
theorem leads_of_mem_reachFrom {waiting reached : List V} {vertex : V}
    (member : vertex ∈ graph.reachFrom waiting reached) :
    vertex ∈ reached ∨ ∃ start ∈ waiting, graph.Leads start vertex := by
  induction waiting, reached using reachFrom.induct graph with
  | case1 reached =>
      rw [reachFrom] at member
      exact .inl member
  | case2 reached first waiting known ih =>
      rw [reachFrom, dif_pos known] at member
      rcases ih member with old | ⟨start, isWaiting, leads⟩
      · exact .inl old
      · exact .inr ⟨start, List.mem_cons_of_mem _ isWaiting, leads⟩
  | case3 reached first waiting fresh ih =>
      rw [reachFrom, dif_neg fresh] at member
      rcases ih member with old | ⟨start, isWaiting, leads⟩
      · rcases List.mem_cons.1 old with rfl | old
        · exact .inr ⟨vertex, List.mem_cons_self, .refl graph vertex⟩
        · exact .inl old
      · rcases List.mem_append.1 isWaiting with isTarget | isWaiting
        · have edge := edge_of_mem_unreachedTargets isTarget
          exact .inr ⟨first, List.mem_cons_self, (Leads.of_edge edge).trans leads⟩
        · exact .inr ⟨start, List.mem_cons_of_mem _ isWaiting, leads⟩

/-- What has been reached or waits is reached in the end. -/
theorem contains_reachFrom {waiting reached : List V} {vertex : V}
    (known : reached.contains vertex = true ∨ waiting.contains vertex = true) :
    (graph.reachFrom waiting reached).contains vertex = true := by
  induction waiting, reached using reachFrom.induct graph with
  | case1 reached =>
      rw [reachFrom]
      simpa using known
  | case2 reached first waiting isReached ih =>
      rw [reachFrom, dif_pos isReached]
      apply ih
      rw [List.contains_cons, Bool.or_eq_true] at known
      rcases known with old | equal | isWaiting
      · exact .inl old
      · rw [List.contains_congr equal]
        exact .inl isReached
      · exact .inr isWaiting
  | case3 reached first waiting fresh ih =>
      rw [reachFrom, dif_neg fresh]
      apply ih
      rw [List.contains_cons, Bool.or_eq_true] at known
      rw [List.contains_cons, List.contains_append, Bool.or_eq_true, Bool.or_eq_true]
      rcases known with old | equal | isWaiting
      · exact .inl (.inr old)
      · exact .inl (.inl equal)
      · exact .inr (.inr isWaiting)

/-- If the targets of all that has been reached have been reached or wait, then in the end they
all have been reached. -/
theorem reachFrom_closed {waiting reached : List V}
    (pending : ∀ {source target}, reached.contains source = true → graph.Edge source target →
      reached.contains target = true ∨ waiting.contains target = true)
    {source target : V} (isReached : (graph.reachFrom waiting reached).contains source = true)
    (edge : graph.Edge source target) :
    (graph.reachFrom waiting reached).contains target = true := by
  induction waiting, reached using reachFrom.induct graph with
  | case1 reached =>
      rw [reachFrom] at isReached ⊢
      simpa using pending isReached edge
  | case2 reached first waiting known ih =>
      rw [reachFrom, dif_pos known] at isReached ⊢
      refine ih ?_ isReached
      intro source target isSource edge
      have next := pending isSource edge
      rw [List.contains_cons, Bool.or_eq_true] at next
      rcases next with old | equal | isWaiting
      · exact .inl old
      · rw [List.contains_congr equal]
        exact .inl known
      · exact .inr isWaiting
  | case3 reached first waiting fresh ih =>
      rw [reachFrom, dif_neg fresh] at isReached ⊢
      refine ih ?_ isReached
      intro source target isSource edge
      rw [List.contains_append, Bool.or_eq_true]
      rw [List.contains_cons, Bool.or_eq_true] at isSource
      rcases isSource with equal | old
      · have edgeOfFirst := edge.congr equal (BEq.refl target)
        exact (contains_of_edge edgeOfFirst (first :: reached)).imp_right .inl
      · have next := pending old edge
        rw [List.contains_cons, Bool.or_eq_true] at next ⊢
        rcases next with old | equal | isWaiting
        · exact .inl (.inr old)
        · exact .inl (.inl equal)
        · exact .inr (.inr isWaiting)

/-- The reach of some entries is all that paths from them lead to. -/
theorem contains_reach_iff {entries : List V} {vertex : V} :
    (reach entries graph).contains vertex = true ↔ ∃ entry ∈ entries, graph.Leads entry vertex := by
  constructor
  · intro isReached
    obtain ⟨other, member, equal⟩ := List.contains_iff_exists_mem_beq.1 isReached
    rcases leads_of_mem_reachFrom member with old | ⟨entry, isEntry, leads⟩
    · cases old
    · exact ⟨entry, isEntry, leads.congr_right (BEq.symm equal)⟩
  · rintro ⟨entry, isEntry, leads⟩
    apply leads.induct ((reach entries graph).contains · = true)
    · intro left right equal isReached
      rw [← List.contains_congr equal]
      exact isReached
    · intro left right edge isReached
      refine reachFrom_closed ?_ isReached edge
      intro source target isSource
      simp at isSource
    · apply contains_reachFrom
      exact .inr (List.elem_eq_true_of_mem isEntry)

end ImportAtlas.Digraph
