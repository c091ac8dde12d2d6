import ImportAtlas.Proofs.Digraph.Order
import Mathlib.Data.List.Rotate

/-!
# Cycles are reported once

A search looks at every target of a vertex once. Where no vertex lists a target twice it looks at
every edge once, so that no edge closes two cycles. A reported cycle lists its vertices in the order
in which they were entered. Two that go round the same way are therefore the same list, and they
would have been closed by the same edge.
-/

namespace ImportAtlas.Digraph

variable {V : Type}

namespace Search

variable {search : Search V}

/-- What is still to be looked at after a target has been used was to be looked at before. -/
theorem Awaits.of_advance {after : Search V} {vertex target source other : V} {remaining : List V}
    {frames : List (Frame V)} (awaits : after.Awaits source other)
    (top : search.stack = ⟨vertex, target :: remaining⟩ :: frames)
    (stack : after.stack = ⟨vertex, remaining⟩ :: frames) : search.Awaits source other := by
  rcases awaits with ⟨frame, isFrame, isSource, isRemaining⟩
  rw [stack] at isFrame
  cases List.mem_cons.1 isFrame with
  | inl isInnermost =>
      subst isInnermost
      exact ⟨⟨vertex, target :: remaining⟩, by simp [top], isSource,
        List.mem_cons_of_mem target isRemaining⟩
  | inr isOuter => exact ⟨frame, by simp [top, isOuter], isSource, isRemaining⟩

/-- No two reported cycles are closed by the same edge, and an edge that closed one has been looked
at for good. -/
structure Unrepeated (search : Search V) : Prop where
  distinct : search.cycles.Pairwise fun first second => closingEdge? first ≠ closingEdge? second
  used : ∀ {source target}, search.Closes source target →
    source ∈ search.visited ∧ ¬ search.Awaits source target

namespace Unrepeated

theorem start : Unrepeated ({} : Search V) where
  distinct := .nil
  used := by simp [Closes]

/-- Where nothing is reported, only vertices that are new get something to be looked at. -/
theorem keep {after : Search V} (unrepeated : Unrepeated search)
    (cycles : after.cycles = search.cycles) (visited : search.visited ⊆ after.visited)
    (awaits : ∀ {source target}, after.Awaits source target →
      search.Awaits source target ∨ source ∉ search.visited) : Unrepeated after := by
  constructor
  · rw [cycles]
    exact unrepeated.distinct
  · intro source target closes
    have closed : search.Closes source target := by
      rw [Closes, cycles] at closes
      exact closes
    have used := unrepeated.used closed
    constructor
    · exact visited used.1
    · intro isAwaited
      cases awaits isAwaited with
      | inl wasAwaited => exact used.2 wasAwaited
      | inr isNew => exact isNew used.1

/-- Looking at a target leaves fewer of them. -/
theorem advance {vertex target : V} {remaining : List V} {frames : List (Frame V)}
    (unrepeated : Unrepeated search)
    (top : search.stack = ⟨vertex, target :: remaining⟩ :: frames) :
    Unrepeated { search with stack := ⟨vertex, remaining⟩ :: frames } := by
  refine unrepeated.keep rfl (List.Subset.refl _) ?_
  intro source other awaits
  exact .inl (awaits.of_advance top rfl)

variable [BEq V] {graph : Digraph V}

/-- A vertex that is entered is new, and nothing else gets targets. -/
theorem enter {target : V} (unrepeated : Unrepeated search) (fresh : target ∉ search.visited) :
    Unrepeated (search.enter graph target) := by
  refine unrepeated.keep rfl (List.subset_cons_self _ _) ?_
  intro source other awaits
  rcases awaits with ⟨frame, isFrame, isSource, isRemaining⟩
  cases List.mem_cons.1 isFrame with
  | inl isInnermost =>
      subst isInnermost
      right
      rw [← isSource]
      exact fresh
  | inr isOuter => exact .inl ⟨frame, isOuter, isSource, isRemaining⟩

/-- The innermost vertex does not list the target again behind the place that has been reached, and
no other frame is of that vertex. -/
theorem not_awaits_used {after : Search V} {vertex target : V} {remaining : List V}
    {frames : List (Frame V)} (coherent : Coherent graph search)
    (nodup : (graph.targets vertex).Nodup)
    (top : search.stack = ⟨vertex, target :: remaining⟩ :: frames)
    (stack : after.stack = ⟨vertex, remaining⟩ :: frames) : ¬ after.Awaits vertex target := by
  intro awaits
  rcases awaits with ⟨frame, isFrame, isVertex, isRemaining⟩
  rw [stack] at isFrame
  cases List.mem_cons.1 isFrame with
  | inl isInnermost =>
      subst isInnermost
      have suffix := coherent.remaining ⟨vertex, target :: remaining⟩ (by simp [top])
      exact (List.nodup_cons.1 (suffix.sublist.nodup nodup)).1 isRemaining
  | inr isOuter =>
      have activeNodup := coherent.nodup
      simp only [active, top, List.map_cons, List.nodup_cons] at activeNodup
      apply activeNodup.1
      rw [← isVertex]
      exact List.mem_map_of_mem isOuter

variable [LawfulBEq V]

/-- The edge that closes a cycle had not been looked at, so it closed none before. -/
theorem close {vertex target : V} {remaining : List V} {frames : List (Frame V)}
    (unrepeated : Unrepeated search) (coherent : Coherent graph search)
    (nodup : (graph.targets vertex).Nodup)
    (top : search.stack = ⟨vertex, target :: remaining⟩ :: frames)
    (onStack : target ∈ search.onStack) :
    Unrepeated
      { search with
        stack := ⟨vertex, remaining⟩ :: frames
        cycles := search.cycles ++ [sliceFrom target search.path] } := by
  have closing := (coherent.slice top onStack).2.2
  constructor
  · rw [List.pairwise_append]
    refine ⟨unrepeated.distinct, List.pairwise_singleton _ _, ?_⟩
    intro cycle reported other isNew sameEdge
    have closedBefore : search.Closes vertex target := by
      rw [List.mem_singleton.1 isNew, closing] at sameEdge
      exact ⟨cycle, reported, sameEdge⟩
    apply (unrepeated.used closedBefore).2
    exact ⟨⟨vertex, target :: remaining⟩, by simp [top], rfl, List.mem_cons_self⟩
  · intro source other closes
    rcases closes with ⟨cycle, reported, isClosing⟩
    cases List.mem_append.1 reported with
    | inl old => exact (unrepeated.advance top).used ⟨cycle, old, isClosing⟩
    | inr isNew =>
        rw [List.mem_singleton.1 isNew, closing] at isClosing
        cases isClosing
        constructor
        · exact coherent.visited (by simp [active, top])
        · exact not_awaits_used coherent nodup top rfl

theorem move {after : Search V} (moved : Move graph search after)
    (nodup : ∀ vertex, (graph.targets vertex).Nodup) (coherent : Coherent graph search)
    (unrepeated : Unrepeated search) : Unrepeated after := by
  cases moved with
  | leave top =>
      refine unrepeated.keep rfl (List.Subset.refl _) ?_
      intro source target awaits
      rcases awaits with ⟨frame, isFrame, isSource, isRemaining⟩
      exact .inl ⟨frame, by simp [top, isFrame], isSource, isRemaining⟩
  | enter top fresh => exact (unrepeated.advance top).enter fresh
  | close top known onStack => exact unrepeated.close coherent (nodup _) top onStack
  | pass top known offStack => exact unrepeated.advance top

end Unrepeated

/-- A list along which the numbers go up begins with the lowest, so no rotation of it does the same
but the list itself. -/
theorem eq_of_isRotated [BEq V] {first second : List V}
    (firstClimbs : first.Pairwise fun earlier later => search.rank earlier < search.rank later)
    (secondClimbs : second.Pairwise fun earlier later => search.rank earlier < search.rank later)
    (rotated : first.IsRotated second) : first = second := by
  apply List.Perm.eq_of_pairwise _ firstClimbs secondClimbs rotated.perm
  intro left right _ _ leftFirst rightFirst
  exact absurd leftFirst (Nat.lt_asymm rightFirst)

end Search

variable [BEq V] {graph : Digraph V}

/-- No target is listed twice by the same vertex. -/
def Simple (graph : Digraph V) : Prop := ∀ targets ∈ graph.values, targets.Nodup

theorem Simple.nodup_targets (simple : graph.Simple) (vertex : V) :
    (graph.targets vertex).Nodup := by
  rw [targets]
  cases found : graph.get? vertex with
  | none => exact .nil
  | some targets =>
      rcases Table.exists_entry_of_get? found with ⟨entry, member, -, isValue⟩
      rw [← isValue]
      exact simple entry.2 (List.mem_map_of_mem member)

variable [LawfulBEq V]

theorem search_unrepeated (simple : graph.Simple) : graph.search.Unrepeated := by
  have both : graph.search.Coherent graph ∧ graph.search.Unrepeated := by
    apply search_induct fun search => search.Coherent graph ∧ search.Unrepeated
    · exact ⟨.start, .start⟩
    · intro search root idle fresh holds
      exact ⟨holds.1.root idle fresh, holds.2.enter fresh⟩
    · intro before after moved holds
      exact ⟨holds.1.move moved, holds.2.move moved simple.nodup_targets holds.1⟩
  exact both.2

/-- No two reported cycles are closed by the same edge. -/
theorem nodup_closingEdges (simple : graph.Simple) :
    (graph.findCycles.map closingEdge?).Nodup := by
  rw [List.Nodup, List.pairwise_map]
  exact (search_unrepeated simple).distinct

/-- No reported cycle is a rotation of another. -/
theorem cycles_not_rotated (simple : graph.Simple) :
    graph.findCycles.Pairwise fun first second => ¬ first.IsRotated second := by
  apply (search_unrepeated simple).distinct.imp_of_mem
  intro first second isFirst isSecond different rotated
  apply different
  have climbing := graph.search_timeline.1.climbing
  rw [Search.eq_of_isRotated (climbing first isFirst).2 (climbing second isSecond).2 rotated]

/-- A reported cycle is closed by an edge of the graph. -/
theorem exists_closingEdge {cycle : List V} (reported : cycle ∈ graph.findCycles) :
    ∃ source target, closingEdge? cycle = some (source, target) ∧ graph.Edge source target := by
  have isCycle := (isCycle_of_mem_findCycles reported).2
  have closing : closingEdge? cycle =
      some (cycle.getLast isCycle.nonempty, cycle.head isCycle.nonempty) := by
    rw [closingEdge?_eq_some]
    exact ⟨List.getLast?_eq_some_getLast _, List.head?_eq_some_head _⟩
  exact ⟨_, _, closing, isCycle.edge (.of_closing closing)⟩

end ImportAtlas.Digraph
