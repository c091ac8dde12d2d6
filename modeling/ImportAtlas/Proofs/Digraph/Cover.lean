import ImportAtlas.Proofs.Digraph.Search
import Mathlib.Data.Fintype.Card

/-!
# Closing edges meet every cycle

When a search leaves a vertex, each of its targets has been left before or closed a cycle. So
along the edges that close no reported cycle every walk from a vertex that has been left comes
to an end, and after the search of a whole graph every walk does. A cycle of the graph therefore
has an edge that closes a reported one.
-/

namespace ImportAtlas.Digraph

variable {V : Type}

namespace Search

/-- A vertex has been entered and left. -/
def HasLeft (search : Search V) (vertex : V) : Prop :=
  vertex ∈ search.visited ∧ vertex ∉ search.onStack

/-- An edge closes a cycle that has been reported. -/
def Closes (search : Search V) (source target : V) : Prop :=
  ∃ cycle ∈ search.cycles, closingEdge? cycle = some (source, target)

/-- A target of an entered vertex is still to be looked at, has been left, or closed a cycle. -/
def Accounted (search : Search V) (frame : Frame V) (target : V) : Prop :=
  target ∈ frame.remaining ∨ search.HasLeft target ∨ search.Closes frame.vertex target

/-- Whatever has been left or closed stays so. -/
structure Extends (before after : Search V) : Prop where
  hasLeft : ∀ {vertex}, before.HasLeft vertex → after.HasLeft vertex
  closes : ∀ {source target}, before.Closes source target → after.Closes source target

theorem Extends.accounted {before after : Search V} (extension : before.Extends after)
    {frame : Frame V} {target : V} (accounted : before.Accounted frame target) :
    after.Accounted frame target := by
  rcases accounted with waiting | left | closing
  · exact .inl waiting
  · exact .inr (.inl (extension.hasLeft left))
  · exact .inr (.inr (extension.closes closing))

variable [BEq V] {graph : Digraph V}

/-- An edge that closes no reported cycle. -/
def OpenEdge (graph : Digraph V) (search : Search V) (source target : V) : Prop :=
  graph.Edge source target ∧ ¬ search.Closes source target

/-- All targets of an outer vertex are accounted for, but for the one entered from it. -/
def Waits (graph : Digraph V) (search : Search V) (inner outer : Frame V) : Prop :=
  ∀ target ∈ graph.targets outer.vertex, target = inner.vertex ∨ search.Accounted outer target

/-- All targets of active vertices are accounted for, but for those that are active themselves,
and walks along open edges from vertices that have been left end. -/
structure Settled (graph : Digraph V) (search : Search V) : Prop where
  innermost : ∀ frame ∈ search.stack.head?, ∀ target ∈ graph.targets frame.vertex,
    search.Accounted frame target
  outer : search.stack.IsChain (search.Waits graph)
  ends : ∀ vertex, search.HasLeft vertex →
    Acc (fun later earlier => search.OpenEdge graph earlier later) vertex

namespace Extends

variable {before after : Search V}

theorem waits (extension : before.Extends after) {inner outer : Frame V}
    (waits : before.Waits graph inner outer) : after.Waits graph inner outer := by
  intro target isTarget
  rcases waits target isTarget with entered | accounted
  · exact .inl entered
  · exact .inr (extension.accounted accounted)

/-- Fewer edges are open later, so walks that ended still end. -/
theorem ends (extension : before.Extends after) {vertex : V}
    (ends : Acc (fun later earlier => before.OpenEdge graph earlier later) vertex) :
    Acc (fun later earlier => after.OpenEdge graph earlier later) vertex := by
  refine Subrelation.accessible ?_ ends
  rintro later earlier ⟨edge, isOpen⟩
  exact ⟨edge, fun closing => isOpen (extension.closes closing)⟩

theorem of_enter (graph : Digraph V) {search : Search V} {target : V}
    (fresh : target ∉ search.visited) : search.Extends (search.enter graph target) where
  hasLeft := by
    rintro vertex ⟨visited, off⟩
    have different : vertex ≠ target := fun equal => fresh (equal ▸ visited)
    exact ⟨List.mem_cons_of_mem _ visited, by simp [enter, different, off]⟩
  closes := id

theorem of_move (moved : Move graph before after) : before.Extends after := by
  cases moved with
  | leave top =>
      exact ⟨fun left => ⟨left.1, fun member => left.2 (List.mem_of_mem_erase member)⟩, id⟩
  | enter top fresh => exact ⟨(of_enter graph fresh).hasLeft, id⟩
  | close top known onStack =>
      refine ⟨id, ?_⟩
      rintro source target ⟨cycle, member, isClosing⟩
      exact ⟨cycle, List.mem_append_left _ member, isClosing⟩
  | pass top known offStack => exact ⟨id, id⟩

end Extends

namespace Settled

variable {search : Search V} {vertex target : V} {remaining : List V} {frames : List (Frame V)}

theorem start : Settled graph ({} : Search V) where
  innermost := by simp
  outer := .nil
  ends := by simp [HasLeft]

/-- All targets of an entered vertex are still to be looked at, and the vertex that it was
entered from, if any, waits for it. -/
theorem enter (fresh : target ∉ search.visited)
    (waits : ∀ frame ∈ search.stack.head?, search.Waits graph ⟨target, graph.targets target⟩ frame)
    (outer : search.stack.IsChain (search.Waits graph))
    (ends : ∀ vertex, search.HasLeft vertex →
      Acc (fun later earlier => search.OpenEdge graph earlier later) vertex) :
    Settled graph (search.enter graph target) := by
  have extension := Extends.of_enter graph fresh
  constructor
  · intro frame isInnermost other isTarget
    obtain rfl : ⟨target, graph.targets target⟩ = frame := by
      simpa [Search.enter] using isInnermost
    exact .inl isTarget
  · exact List.isChain_cons.2 ⟨fun frame isNext => extension.waits (waits frame isNext),
      outer.imp fun _ _ => extension.waits⟩
  · rintro vertex ⟨visited, off⟩
    simp only [Search.enter, List.mem_cons, not_or] at visited off
    exact extension.ends (ends vertex ⟨visited.resolve_left off.1, off.2⟩)

theorem root {root : V} (idle : search.stack = []) (fresh : root ∉ search.visited)
    (settled : Settled graph search) : Settled graph (search.enter graph root) := by
  apply enter fresh _ settled.outer settled.ends
  simp [idle]

/-- The innermost vertex has used up a target that has been left or closed a cycle, and nothing
else has been left. -/
theorem use {after : Search V} (settled : Settled graph search)
    (top : search.stack = ⟨vertex, target :: remaining⟩ :: frames)
    (stack : after.stack = ⟨vertex, remaining⟩ :: frames) (extension : search.Extends after)
    (leaves : ∀ {other}, after.HasLeft other → search.HasLeft other)
    (used : after.HasLeft target ∨ after.Closes vertex target) : Settled graph after := by
  have innermost := settled.innermost
  have outer := settled.outer
  rw [top] at innermost outer
  constructor
  · intro frame isInnermost other isTarget
    obtain rfl : ⟨vertex, remaining⟩ = frame := by simpa [stack] using isInnermost
    have accounted := innermost _ rfl other isTarget
    rcases extension.accounted accounted with waiting | settledTarget
    · rcases List.mem_cons.1 waiting with rfl | waiting
      · exact .inr used
      · exact .inl waiting
    · exact .inr settledTarget
  · rw [stack, List.isChain_cons]
    rw [List.isChain_cons] at outer
    exact ⟨fun frame isNext => extension.waits (outer.1 frame isNext),
      outer.2.imp fun _ _ => extension.waits⟩
  · intro other left
    exact extension.ends (settled.ends other (leaves left))

variable [LawfulBEq V]

/-- A vertex is left when all its targets have been left or closed a cycle, so walks along open
edges from it end. -/
theorem leave (settled : Settled graph search) (coherent : Coherent graph search)
    (top : search.stack = ⟨vertex, []⟩ :: frames) :
    Settled graph
      { search with
        onStack := search.onStack.erase vertex
        path := search.path.dropLast
        stack := frames } := by
  have extension := Extends.of_move (.leave top : Move graph search _)
  have activeIs : search.active = vertex :: frames.map Frame.vertex := by simp [active, top]
  have innermost := settled.innermost
  have outer := settled.outer
  have nodup := coherent.nodup
  rw [top] at innermost outer
  rw [activeIs] at nodup
  have leftNow : HasLeft
      { search with
        onStack := search.onStack.erase vertex
        path := search.path.dropLast
        stack := frames } vertex := by
    refine ⟨coherent.visited (by simp [activeIs]), ?_⟩
    simp only [coherent.onStack, activeIs, List.erase_cons_head]
    exact (List.nodup_cons.1 nodup).1
  constructor
  · intro frame isInnermost target isTarget
    rcases (List.isChain_cons.1 outer).1 frame isInnermost target isTarget with rfl | accounted
    · exact .inr (.inl leftNow)
    · exact extension.accounted accounted
  · exact (List.isChain_cons.1 outer).2.imp fun _ _ => extension.waits
  · rintro other ⟨visited, off⟩
    by_cases isVertex : other = vertex
    · subst isVertex
      constructor
      rintro target ⟨edge, isOpen⟩
      rcases innermost _ rfl target (edge_iff_mem.1 edge) with waiting | left | closing
      · cases waiting
      · exact extension.ends (settled.ends target left)
      · exact (isOpen closing).elim
    · have offBefore : other ∉ search.onStack := by
        intro member
        exact off ((List.mem_erase_of_ne isVertex).2 member)
      exact extension.ends (settled.ends other ⟨visited, offBefore⟩)

theorem move {before after : Search V} (moved : Move graph before after)
    (coherent : Coherent graph before) (settled : Settled graph before) :
    Settled graph after := by
  have extension := Extends.of_move moved
  cases moved with
  | leave top => exact settled.leave coherent top
  | enter top fresh =>
      have innermost := settled.innermost
      have outer := settled.outer
      rw [top] at innermost outer
      apply Settled.enter
      · exact fresh
      · intro frame isNext target isTarget
        obtain rfl : ⟨_, _⟩ = frame := by simpa using isNext
        rcases innermost _ rfl target isTarget with waiting | settledTarget
        · rcases List.mem_cons.1 waiting with equal | waiting
          · exact .inl equal
          · exact .inr (.inl waiting)
        · exact .inr (.inr settledTarget)
      · rw [List.isChain_cons] at outer
        exact List.isChain_cons.2 outer
      · exact settled.ends
  | close top known onStack =>
      obtain ⟨-, -, isClosing⟩ := coherent.slice top onStack
      apply settled.use top rfl extension id
      exact .inr ⟨_, List.mem_append_right _ (List.mem_singleton.2 rfl), isClosing⟩
  | pass top known offStack => exact settled.use top rfl extension id (.inl ⟨known, offStack⟩)

end Settled

/-- Vertices that have been visited stay visited. -/
theorem mem_visited_of_move {before after : Search V} {vertex : V}
    (moved : Move graph before after) (visited : vertex ∈ before.visited) :
    vertex ∈ after.visited := by
  cases moved with
  | leave | close | pass => exact visited
  | enter => exact List.mem_cons_of_mem _ visited

theorem mem_visited_visitRoots [LawfulBEq V] {roots : List V} {root : V} (member : root ∈ roots)
    {search : Search V} (idle : search.stack = []) :
    root ∈ (roots.foldl (visitRoot graph) search).visited := by
  have stays : ∀ {before : Search V}, root ∈ before.visited →
      root ∈ (before.run graph).visited :=
    fun visited => run_induct (root ∈ ·.visited) mem_visited_of_move _ visited
  obtain ⟨before, after, rfl⟩ := List.append_of_mem member
  rw [List.foldl_append, List.foldl_cons]
  have idleBefore : (before.foldl (visitRoot graph) search).stack = [] :=
    stack_visitRoots before idle
  apply visitRoots_induct (root ∈ ·.visited) (fun _ _ visited => List.mem_cons_of_mem _ visited)
    mem_visited_of_move after (stack_visitRoot idleBefore root)
  unfold visitRoot
  split
  · rename_i visited
    simpa using visited
  · exact stays List.mem_cons_self

end Search

variable [BEq V] [LawfulBEq V] {graph : Digraph V}

theorem search_settled (graph : Digraph V) : graph.search.Settled graph := by
  have both : graph.search.Coherent graph ∧ graph.search.Settled graph := by
    apply search_induct (fun search => search.Coherent graph ∧ search.Settled graph)
    · exact ⟨.start, .start⟩
    · exact fun idle fresh ⟨coherent, settled⟩ =>
        ⟨coherent.root idle fresh, settled.root idle fresh⟩
    · exact fun moved ⟨coherent, settled⟩ => ⟨coherent.move moved, settled.move moved coherent⟩
  exact both.2

/-- After the search, every vertex with an edge has been left. -/
theorem search_hasLeft {source target : V} (edge : graph.Edge source target) :
    graph.search.HasLeft source := by
  have known : source ∈ graph.keys := List.contains_iff_mem.1 edge.source_known
  refine ⟨Search.mem_visited_visitRoots known rfl, ?_⟩
  rw [graph.search_coherent.onStack, Search.active, stack_search]
  simp

/-- After the search, every walk along edges that close no reported cycle ends. -/
theorem openEdge_ends (graph : Digraph V) :
    WellFounded fun later earlier => graph.search.OpenEdge graph earlier later := by
  constructor
  intro vertex
  constructor
  rintro target ⟨edge, isOpen⟩
  have ends := graph.search_settled.ends vertex (search_hasLeft edge)
  exact ends.inv ⟨edge, isOpen⟩

/-- If each vertex of a finite set has an edge from a vertex of the set, then an edge between two
of them closes a reported cycle. -/
theorem exists_closing_of_each_entered {members : Set V} (finite : members.Finite)
    (nonempty : members.Nonempty)
    (entered : ∀ target ∈ members, ∃ source ∈ members, graph.Edge source target) :
    ∃ cycle ∈ graph.findCycles, ∃ source ∈ members, ∃ target ∈ members,
      closingEdge? cycle = some (source, target) := by
  by_contra noClosing
  have isOpen : ∀ source ∈ members, ∀ target ∈ members, graph.Edge source target →
      graph.search.OpenEdge graph source target := by
    intro source isSource target isTarget edge
    refine ⟨edge, ?_⟩
    rintro ⟨cycle, reported, isClosing⟩
    exact noClosing ⟨cycle, reported, source, isSource, target, isTarget, isClosing⟩
  -- Walks along open edges end, so on a finite set they also have a start.
  have : Finite members := finite
  let before (first second : members) : Prop :=
    Relation.TransGen (graph.search.OpenEdge graph) first.1 second.1
  have : IsTrans members before := ⟨fun _ _ _ left right => left.trans right⟩
  have : Std.Irrefl before := ⟨fun vertex round =>
    graph.openEdge_ends.transGen.irrefl.irrefl vertex.1 (Relation.transGen_swap.2 round)⟩
  have starts : WellFounded before := Finite.wellFounded_of_trans_of_irrefl before
  obtain ⟨some, isMember⟩ := nonempty
  obtain ⟨first, -, minimal⟩ := starts.has_min Set.univ ⟨⟨some, isMember⟩, trivial⟩
  obtain ⟨source, isSource, edge⟩ := entered first.1 first.2
  exact minimal ⟨source, isSource⟩ trivial (.single (isOpen source isSource first.1 first.2 edge))

/-- Every cycle goes through an edge that closes a reported one. -/
theorem IsCycle.exists_closing {walk : List V} (isCycle : graph.IsCycle walk) :
    ∃ cycle ∈ graph.findCycles, ∃ source target,
      closingEdge? cycle = some (source, target) ∧ Follows walk source target := by
  obtain ⟨source, target, follows, notOpen⟩ :=
    exists_follows_not graph.openEdge_ends isCycle.nonempty
  have closes : graph.search.Closes source target := by
    by_contra isOpen
    exact notOpen ⟨isCycle.edge follows, isOpen⟩
  obtain ⟨cycle, reported, isClosing⟩ := closes
  exact ⟨cycle, reported, source, target, isClosing, follows⟩

/-- Deleting the closing edges leaves no cycle: one that was left would be a cycle of the graph
before, and would have lost an edge. -/
theorem acyclic_without_closing (graph : Digraph V) :
    (graph.without (graph.findCycles.filterMap closingEdge?)).Acyclic := by
  intro walk isCycle
  have before : graph.IsCycle walk :=
    ⟨isCycle.nonempty, fun follows => (edge_without_iff.1 (isCycle.edge follows)).1⟩
  obtain ⟨cycle, reported, source, target, isClosing, follows⟩ := before.exists_closing
  apply (edge_without_iff.1 (isCycle.edge follows)).2
  exact List.mem_filterMap.2 ⟨cycle, reported, isClosing⟩

theorem findCycles_eq_nil_iff (graph : Digraph V) : graph.findCycles = [] ↔ graph.Acyclic := by
  constructor
  · intro noneReported walk isCycle
    obtain ⟨cycle, reported, -⟩ := isCycle.exists_closing
    rw [noneReported] at reported
    cases reported
  · intro acyclic
    rw [List.eq_nil_iff_forall_not_mem]
    intro cycle reported
    exact acyclic cycle (isCycle_of_mem_findCycles reported).2

end ImportAtlas.Digraph
