import ImportAtlas.Digraph.Cycle
import ImportAtlas.Proofs.Digraph.ClosedWalk
import Mathlib.Data.List.Nodup

/-!
# The depth-first search

A search enters a vertex, goes through its targets and leaves it. What one step can do is said
once, as a relation, and every invariant of a search is carried from step to step and from root
to root by the two induction principles below.

The first invariant is the bookkeeping: the path and the set of active vertices are the stack
read in its two directions, the path is a simple walk along edges, and every list that has been
reported is a cycle.
-/

namespace ImportAtlas.Digraph

variable {V : Type} [BEq V] {graph : Digraph V}

namespace Search

/-- Vertices that have been entered and not left, innermost first. -/
def active (search : Search V) : List V := search.stack.map Frame.vertex

/-- What one step of a search with a nonempty stack can do. -/
inductive Move (graph : Digraph V) (search : Search V) : Search V → Prop where
  | leave {vertex : V} {frames : List (Frame V)}
      (top : search.stack = ⟨vertex, []⟩ :: frames) :
      Move graph search
        { search with
          onStack := search.onStack.erase vertex
          path := search.path.dropLast
          stack := frames }
  | enter {vertex target : V} {remaining : List V} {frames : List (Frame V)}
      (top : search.stack = ⟨vertex, target :: remaining⟩ :: frames)
      (fresh : target ∉ search.visited) :
      Move graph search
        (enter graph { search with stack := ⟨vertex, remaining⟩ :: frames } target)
  | close {vertex target : V} {remaining : List V} {frames : List (Frame V)}
      (top : search.stack = ⟨vertex, target :: remaining⟩ :: frames)
      (known : target ∈ search.visited) (onStack : target ∈ search.onStack) :
      Move graph search
        { search with
          stack := ⟨vertex, remaining⟩ :: frames
          cycles := search.cycles ++ [sliceFrom target search.path] }
  | pass {vertex target : V} {remaining : List V} {frames : List (Frame V)}
      (top : search.stack = ⟨vertex, target :: remaining⟩ :: frames)
      (known : target ∈ search.visited) (offStack : target ∉ search.onStack) :
      Move graph search { search with stack := ⟨vertex, remaining⟩ :: frames }

variable [LawfulBEq V]

theorem sliceFrom_append {target : V} {before : List V} (fresh : target ∉ before)
    (after : List V) : sliceFrom target (before ++ target :: after) = target :: after := by
  unfold sliceFrom
  rw [List.dropWhile_append_of_pos]
  · simp
  · intro other member
    have different : other ≠ target := fun equal => fresh (equal ▸ member)
    simpa using different

theorem move_step (graph : Digraph V) (search : Search V) (busy : search.stack ≠ []) :
    Move graph search (search.step graph) := by
  unfold step
  split
  · contradiction
  · rename_i top
    exact .leave top
  · rename_i vertex target remaining frames top
    by_cases known : target ∈ search.visited
    · by_cases onStack : target ∈ search.onStack
      · simp only [List.contains_eq_mem, known, onStack, decide_true, Bool.not_true,
          Bool.false_eq_true, if_false, if_true]
        exact .close top known onStack
      · simp only [List.contains_eq_mem, known, onStack, decide_true, decide_false, Bool.not_true,
          Bool.false_eq_true, if_false]
        exact .pass top known onStack
    · simp only [List.contains_eq_mem, known, decide_false, Bool.not_false, if_true]
      exact .enter top known

/-! ## Induction along a search -/

/-- What every move keeps, a run keeps. -/
theorem run_induct (property : Search V → Prop)
    (move : ∀ {before after}, Move graph before after → property before → property after)
    (search : Search V) (start : property search) : property (search.run graph) := by
  induction search using run.induct graph with
  | case1 search idle =>
      rw [run, dif_pos idle]
      exact start
  | case2 search busy ih =>
      rw [run, dif_neg busy]
      exact ih (move (move_step graph search busy) start)

/-- A run ends with every entered vertex left. -/
theorem stack_run (search : Search V) : (search.run graph).stack = [] := by
  induction search using run.induct graph with
  | case1 search idle =>
      rw [run, dif_pos idle]
      exact idle
  | case2 search busy ih =>
      rw [run, dif_neg busy]
      exact ih

theorem stack_visitRoot {search : Search V} (idle : search.stack = []) (root : V) :
    (search.visitRoot graph root).stack = [] := by
  unfold visitRoot
  split
  · exact idle
  · exact stack_run _

theorem stack_visitRoots (roots : List V) {search : Search V} (idle : search.stack = []) :
    (roots.foldl (visitRoot graph) search).stack = [] := by
  induction roots generalizing search with
  | nil => exact idle
  | cons first rest ih => exact ih (stack_visitRoot idle first)

/-- What holds at the start, and what entering a new root from a list and every move keep, holds
after the roots of the list. -/
theorem visitRoots_induct_of_mem (property : Search V → Prop) (roots : List V)
    (root : ∀ {search : Search V} {root : V}, root ∈ roots → search.stack = [] →
      root ∉ search.visited → property search → property (search.enter graph root))
    (move : ∀ {before after}, Move graph before after → property before → property after)
    {search : Search V} (idle : search.stack = []) (start : property search) :
    property (roots.foldl (visitRoot graph) search) := by
  induction roots generalizing search with
  | nil => exact start
  | cons first rest ih =>
      apply ih (fun member => root (List.mem_cons_of_mem first member)) (stack_visitRoot idle first)
      unfold visitRoot
      split
      · exact start
      · rename_i fresh
        apply run_induct property move
        apply root List.mem_cons_self idle _ start
        simpa using fresh

/-- What holds at the start, and what entering a new root and every move keep, holds after any
sequence of roots. -/
theorem visitRoots_induct (property : Search V → Prop)
    (root : ∀ {search : Search V} {root : V}, search.stack = [] → root ∉ search.visited →
      property search → property (search.enter graph root))
    (move : ∀ {before after}, Move graph before after → property before → property after)
    (roots : List V) {search : Search V} (idle : search.stack = []) (start : property search) :
    property (roots.foldl (visitRoot graph) search) :=
  visitRoots_induct_of_mem property roots (fun _ => root) move idle start

end Search

/-- Induction along the search of a whole graph. -/
theorem search_induct [LawfulBEq V] (property : Search V → Prop) (start : property {})
    (root : ∀ {search : Search V} {root : V}, search.stack = [] → root ∉ search.visited →
      property search → property (search.enter graph root))
    (move : ∀ {before after}, Search.Move graph before after → property before →
      property after) : property graph.search :=
  Search.visitRoots_induct property root move graph.keys rfl start

theorem stack_search [LawfulBEq V] (graph : Digraph V) : graph.search.stack = [] :=
  Search.stack_visitRoots graph.keys rfl

namespace Search

/-! ## The bookkeeping -/

/-- The path and the set of active vertices are what the stack says, the active vertices form a
simple walk along edges, and all reported lists are cycles without repetition. -/
structure Coherent (graph : Digraph V) (search : Search V) : Prop where
  path : search.path = search.active.reverse
  onStack : search.onStack = search.active
  nodup : search.active.Nodup
  visited : search.active ⊆ search.visited
  /-- Read from the inside, every active vertex is a target of the next one. -/
  linked : search.active.IsChain fun inner outer => graph.Edge outer inner
  remaining : ∀ frame ∈ search.stack, frame.remaining <:+ graph.targets frame.vertex
  cycles : ∀ cycle ∈ search.cycles, cycle.Nodup ∧ graph.IsCycle cycle

namespace Coherent

variable {search : Search V} {vertex target : V} {remaining : List V} {frames : List (Frame V)}

theorem start : Coherent graph ({} : Search V) where
  path := rfl
  onStack := rfl
  nodup := .nil
  visited := List.nil_subset _
  linked := .nil
  remaining := by simp
  cycles := by simp

/-- Looking at a target uses it up and changes nothing else. -/
theorem advance (coherent : Coherent graph search)
    (top : search.stack = ⟨vertex, target :: remaining⟩ :: frames) :
    Coherent graph { search with stack := ⟨vertex, remaining⟩ :: frames } := by
  have sameActive : active { search with stack := ⟨vertex, remaining⟩ :: frames } =
      search.active := by
    simp [active, top]
  constructor
  · rw [sameActive]
    exact coherent.path
  · rw [sameActive]
    exact coherent.onStack
  · rw [sameActive]
    exact coherent.nodup
  · rw [sameActive]
    exact coherent.visited
  · rw [sameActive]
    exact coherent.linked
  · intro frame member
    rcases List.mem_cons.1 member with rfl | member
    · have suffix := coherent.remaining ⟨vertex, target :: remaining⟩ (by simp [top])
      exact (List.suffix_cons target remaining).trans suffix
    · exact coherent.remaining frame (by simp [top, member])
  · exact coherent.cycles

theorem enter (coherent : Coherent graph search) (fresh : target ∉ search.visited)
    (linked : ∀ outer ∈ search.active.head?, graph.Edge outer target) :
    Coherent graph (search.enter graph target) where
  path := by simp [Search.enter, active, coherent.path]
  onStack := by simp [Search.enter, active, coherent.onStack]
  nodup := by
    have inactive : target ∉ search.active := fun member => fresh (coherent.visited member)
    exact List.nodup_cons.2 ⟨inactive, coherent.nodup⟩
  visited := by
    intro other member
    rcases List.mem_cons.1 member with rfl | member
    · exact List.mem_cons_self
    · exact List.mem_cons_of_mem _ (coherent.visited member)
  linked := List.isChain_cons.2 ⟨linked, coherent.linked⟩
  remaining := by
    intro frame member
    rcases List.mem_cons.1 member with rfl | member
    · exact List.suffix_refl _
    · exact coherent.remaining frame member
  cycles := coherent.cycles

theorem root {root : V} (idle : search.stack = []) (fresh : root ∉ search.visited)
    (coherent : Coherent graph search) : Coherent graph (search.enter graph root) := by
  apply coherent.enter fresh
  simp [active, idle]

variable [LawfulBEq V]

/-- The target that a search looks at is one that its innermost vertex points to. -/
theorem edge (coherent : Coherent graph search)
    (top : search.stack = ⟨vertex, target :: remaining⟩ :: frames) : graph.Edge vertex target := by
  have suffix := coherent.remaining ⟨vertex, target :: remaining⟩ (by simp [top])
  rw [edge_iff_mem]
  exact suffix.subset (by simp)

theorem leave (coherent : Coherent graph search) (top : search.stack = ⟨vertex, []⟩ :: frames) :
    Coherent graph
      { search with
        onStack := search.onStack.erase vertex
        path := search.path.dropLast
        stack := frames } := by
  have activeIs : search.active = vertex :: frames.map Frame.vertex := by simp [active, top]
  have nodup := coherent.nodup
  have visited := coherent.visited
  have linked := coherent.linked
  rw [activeIs] at nodup visited linked
  constructor
  · simp [coherent.path, active, top]
  · simp [coherent.onStack, active, top]
  · exact (List.nodup_cons.1 nodup).2
  · exact fun other member => visited (List.mem_cons_of_mem _ member)
  · exact (List.isChain_cons.1 linked).2
  · intro frame member
    exact coherent.remaining frame (by simp [top, member])
  · exact coherent.cycles

/-- The part of the active path that begins with an active target of the innermost vertex is a
cycle, and the edge to that target closes it. -/
theorem slice (coherent : Coherent graph search)
    (top : search.stack = ⟨vertex, target :: remaining⟩ :: frames)
    (onStack : target ∈ search.onStack) :
    (sliceFrom target search.path).Nodup ∧ graph.IsCycle (sliceFrom target search.path) ∧
      closingEdge? (sliceFrom target search.path) = some (vertex, target) := by
  have pathNodup : search.path.Nodup := by
    rw [coherent.path, List.nodup_reverse]
    exact coherent.nodup
  have pathLinked : search.path.IsChain graph.Edge := by
    rw [coherent.path, List.isChain_reverse]
    exact coherent.linked
  have pathLast : search.path.getLast? = some vertex := by
    simp [coherent.path, active, top]
  have onPath : target ∈ search.path := by
    rw [coherent.path, List.mem_reverse, ← coherent.onStack]
    exact onStack
  obtain ⟨before, after, split⟩ := List.append_of_mem onPath
  have isSlice : sliceFrom target search.path = target :: after := by
    rw [split] at pathNodup ⊢
    have fresh : target ∉ before ++ after := (List.nodup_cons.1 (List.nodup_middle.1 pathNodup)).1
    exact sliceFrom_append (fun member => fresh (List.mem_append_left after member)) after
  have suffix : target :: after <:+ search.path := ⟨before, split.symm⟩
  have closing : closingEdge? (target :: after) = some (vertex, target) := by
    rw [closingEdge?_eq_some, ← pathLast, split]
    simp [List.getLast?_cons]
  rw [isSlice]
  refine ⟨suffix.sublist.nodup pathNodup, ?_, closing⟩
  apply IsCycle.of_isChain (List.cons_ne_nil _ _) (pathLinked.suffix suffix)
  intro source first isClosing
  rw [closing] at isClosing
  cases isClosing
  exact coherent.edge top

theorem move {before after : Search V} (moved : Move graph before after)
    (coherent : Coherent graph before) : Coherent graph after := by
  cases moved with
  | leave top => exact coherent.leave top
  | enter top fresh =>
      apply (coherent.advance top).enter fresh
      intro outer isInnermost
      obtain rfl : _ = outer := by simpa [active] using isInnermost
      exact coherent.edge top
  | close top known onStack =>
      obtain ⟨nodup, isCycle, -⟩ := coherent.slice top onStack
      have advanced := coherent.advance top
      constructor
      · exact advanced.path
      · exact advanced.onStack
      · exact advanced.nodup
      · exact advanced.visited
      · exact advanced.linked
      · exact advanced.remaining
      · intro cycle member
        rcases List.mem_append.1 member with member | member
        · exact coherent.cycles cycle member
        · rw [List.mem_singleton.1 member]
          exact ⟨nodup, isCycle⟩
  | pass top known offStack => exact coherent.advance top

end Coherent

end Search

/-- The bookkeeping is right throughout the search of a graph. -/
theorem search_coherent [LawfulBEq V] (graph : Digraph V) : graph.search.Coherent graph :=
  search_induct (Search.Coherent graph) .start .root .move

/-- What is reported is a cycle without repetition. -/
theorem isCycle_of_mem_findCycles [LawfulBEq V] {cycle : List V}
    (reported : cycle ∈ graph.findCycles) : cycle.Nodup ∧ graph.IsCycle cycle :=
  graph.search_coherent.cycles cycle reported

end ImportAtlas.Digraph
