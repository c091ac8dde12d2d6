import ImportAtlas.Proofs.Digraph.Checked
import ImportAtlas.Proofs.Digraph.Order
import Mathlib.Logic.Function.Iterate

/-!
# What a search does, event by event

A search enters vertices and examines the entries of their target lists. The events are recorded
here along the same steps, from the first root to the last. An entry that has not been examined is
left over in a frame of the stack, or the vertex that lists it has not been entered. A step takes
the entry that it examines away from these and nothing else, and in the end none is left. So every
entry is examined once, and since only new vertices are entered, every vertex is entered once.

The last part follows the rounds of the search under one root, from the one that enters the root to
the one that leaves it.
-/

namespace ImportAtlas.Digraph

variable {V : Type}

/-- An entry of a target list: the vertex that lists it, its place there, and the target. -/
structure Listed (V : Type) where
  vertex : V
  place : Nat
  target : V
  deriving DecidableEq

/-- What a search does. -/
inductive Event (V : Type) where
  | entered (vertex : V)
  | examined (entry : Listed V)
  deriving DecidableEq

namespace Event

def entered? : Event V → Option V
  | .entered vertex => some vertex
  | .examined _ => none

def examined? : Event V → Option (Listed V)
  | .entered _ => none
  | .examined entry => some entry

end Event

/-- Targets that a vertex lists one after the other, the first of them in a given place. -/
def listedFrom (vertex : V) (place : Nat) (targets : List V) : List (Listed V) :=
  (targets.zipIdx place).map fun (target, place) => ⟨vertex, place, target⟩

theorem listedFrom_cons (vertex : V) (place : Nat) (target : V) (targets : List V) :
    listedFrom vertex place (target :: targets) =
      ⟨vertex, place, target⟩ :: listedFrom vertex (place + 1) targets := by
  simp [listedFrom, List.zipIdx_cons]

variable [BEq V]

/-- All entries of all target lists. -/
def listed (graph : Digraph V) : List (Listed V) :=
  graph.entries.flatMap fun entry => listedFrom entry.1 0 entry.2

/-! ## The record of a search -/

namespace Search

/-- What the next step does, apart from leaving a vertex. -/
def events (graph : Digraph V) (search : Search V) : List (Event V) :=
  match search.stack with
  | ⟨vertex, target :: remaining⟩ :: _ =>
      .examined ⟨vertex, (graph.targets vertex).length - (remaining.length + 1), target⟩ ::
        (if search.visited.contains target then [] else [.entered target])
  | _ => []

/-- What a run does. -/
def runEvents [EquivBEq V] (graph : Digraph V) (search : Search V) : List (Event V) :=
  if _active : search.stack = [] then []
  else search.events graph ++ runEvents graph (search.step graph)
termination_by search.work graph
decreasing_by exact work_step_lt graph search _active

def rootEvents [EquivBEq V] (graph : Digraph V) (search : Search V) (root : V) : List (Event V) :=
  if search.visited.contains root then []
  else .entered root :: (search.enter graph root).runEvents graph

def rootsEvents [EquivBEq V] (graph : Digraph V) (search : Search V) : List V → List (Event V)
  | [] => []
  | root :: roots =>
      search.rootEvents graph root ++ (search.visitRoot graph root).rootsEvents graph roots

end Search

/-- What the search of a whole graph does. -/
def events [EquivBEq V] (graph : Digraph V) : List (Event V) :=
  Search.rootsEvents graph {} graph.keys

/-! ## Vertices are entered once -/

namespace Search

variable {graph : Digraph V} {search : Search V}

theorem visited_step (graph : Digraph V) (search : Search V) :
    (search.step graph).visited =
      ((search.events graph).filterMap Event.entered?).reverse ++ search.visited := by
  rcases search with ⟨visited, onStack, path, stack, cycles⟩
  match stack with
  | [] => rfl
  | ⟨vertex, []⟩ :: frames => rfl
  | ⟨vertex, target :: remaining⟩ :: frames =>
      cases known : visited.contains target with
      | false =>
          simp only [step, events, known, Bool.not_false, Bool.false_eq_true, if_true, if_false]
          rfl
      | true =>
          simp only [step, events, known, Bool.not_true, Bool.false_eq_true, if_false, if_true]
          split <;> rfl

variable [EquivBEq V]

/-- The vertices visited in a run are those visited before and those entered, the last one first. -/
theorem visited_run (graph : Digraph V) (search : Search V) :
    (search.run graph).visited =
      ((search.runEvents graph).filterMap Event.entered?).reverse ++ search.visited := by
  induction search using run.induct graph with
  | case1 search idle =>
      rw [run, runEvents, dif_pos idle, dif_pos idle]
      rfl
  | case2 search busy ih =>
      rw [run, runEvents, dif_neg busy, dif_neg busy, ih, visited_step, List.filterMap_append,
        List.reverse_append, List.append_assoc]

theorem visited_visitRoot (graph : Digraph V) (search : Search V) (root : V) :
    (search.visitRoot graph root).visited =
      ((search.rootEvents graph root).filterMap Event.entered?).reverse ++ search.visited := by
  rw [visitRoot, rootEvents]
  split
  · rfl
  · rw [visited_run]
    simp [enter, Event.entered?]

theorem visited_visitRoots (graph : Digraph V) (search : Search V) (roots : List V) :
    (roots.foldl (visitRoot graph) search).visited =
      ((search.rootsEvents graph roots).filterMap Event.entered?).reverse ++ search.visited := by
  induction roots generalizing search with
  | nil => rfl
  | cons root roots ih =>
      rw [List.foldl_cons, ih, visited_visitRoot, rootsEvents, List.filterMap_append,
        List.reverse_append, List.append_assoc]

end Search

theorem visited_search [EquivBEq V] (graph : Digraph V) :
    graph.search.visited = (graph.events.filterMap Event.entered?).reverse := by
  rw [search, Search.visited_visitRoots, List.append_nil, events]

variable [LawfulBEq V]

theorem nodup_visited (graph : Digraph V) : graph.search.visited.Nodup := by
  apply search_induct fun search => search.visited.Nodup
  · exact .nil
  · intro search root idle fresh nodup
    exact List.nodup_cons.2 ⟨fresh, nodup⟩
  · intro before after moved nodup
    cases moved with
    | leave | close | pass => exact nodup
    | enter top fresh => exact List.nodup_cons.2 ⟨fresh, nodup⟩

theorem mem_flatten_values {graph : Digraph V} {target : V} :
    target ∈ graph.values.flatten ↔ ∃ source, graph.Edge source target := by
  rw [← contains_flatten_values, List.contains_iff_mem]

/-- The search visits the keys and the targets of a graph and nothing else. -/
theorem mem_visited_iff {graph : Digraph V} {vertex : V} :
    vertex ∈ graph.search.visited ↔ vertex ∈ graph.keys ++ graph.values.flatten := by
  rw [List.mem_append, mem_flatten_values]
  constructor
  · have both : graph.search.Coherent graph ∧ ∀ vertex ∈ graph.search.visited,
        vertex ∈ graph.keys ∨ ∃ source, graph.Edge source vertex := by
      apply Search.visitRoots_induct_of_mem (fun search =>
        search.Coherent graph ∧ ∀ vertex ∈ search.visited,
          vertex ∈ graph.keys ∨ ∃ source, graph.Edge source vertex) graph.keys _ _ rfl
      · exact ⟨.start, fun vertex member => nomatch member⟩
      · intro search root isKey idle fresh holds
        refine ⟨holds.1.root idle fresh, ?_⟩
        intro vertex member
        cases List.mem_cons.1 member with
        | inl isRoot => exact .inl (isRoot ▸ isKey)
        | inr old => exact holds.2 vertex old
      · intro before after moved holds
        refine ⟨holds.1.move moved, ?_⟩
        intro vertex member
        cases moved with
        | leave | close | pass => exact holds.2 vertex member
        | enter top fresh =>
            cases List.mem_cons.1 member with
            | inl isTarget => exact .inr ⟨_, isTarget ▸ holds.1.edge top⟩
            | inr old => exact holds.2 vertex old
    exact both.2 vertex
  · intro occurs
    cases occurs with
    | inl isKey => exact Search.mem_visited_visitRoots isKey rfl
    | inr isTarget =>
        obtain ⟨source, edge⟩ := isTarget
        have left := search_hasLeft edge
        exact graph.search_timeline.1.target_visited graph.search_coherent left
          (edge_iff_mem.1 edge)

/-- Every vertex that is a key or a target is entered once. -/
theorem perm_entered (graph : Digraph V) :
    (graph.events.filterMap Event.entered?).Perm
      (graph.keys ++ graph.values.flatten).eraseDups := by
  have enteredOnce : (graph.events.filterMap Event.entered?).Nodup := by
    rw [← List.nodup_reverse, ← visited_search]
    exact graph.nodup_visited
  rw [List.perm_ext_iff_of_nodup enteredOnce (distinct_eraseDups _).nodup]
  intro vertex
  rw [List.mem_eraseDups, ← mem_visited_iff, visited_search, List.mem_reverse]

/-! ## Entries are examined once -/

/-- Entries of the vertices that have not been visited. -/
def untouched (graph : Digraph V) (visited : List V) : List (Listed V) :=
  (graph.entries.filter fun entry => !visited.contains entry.1).flatMap fun entry =>
    listedFrom entry.1 0 entry.2

namespace Search

/-- Entries that are still to be examined for the vertices on a stack. -/
def unfinished (graph : Digraph V) (stack : List (Frame V)) : List (Listed V) :=
  stack.flatMap fun frame =>
    listedFrom frame.vertex ((graph.targets frame.vertex).length - frame.remaining.length)
      frame.remaining

/-- Entries that have not been examined. -/
def outstanding (graph : Digraph V) (search : Search V) : List (Listed V) :=
  unfinished graph search.stack ++ graph.untouched search.visited

end Search

theorem listed_of_vertex (graph : Digraph V) (vertex : V) :
    (graph.entries.filter fun entry => entry.1 == vertex).flatMap
      (fun entry => listedFrom entry.1 0 entry.2) = listedFrom vertex 0 (graph.targets vertex) := by
  rw [Table.filter_key graph.distinct, targets, Table.get?]
  cases found : graph.entries.find? fun entry => entry.1 == vertex with
  | none => rfl
  | some entry =>
      obtain rfl : entry.1 = vertex := by simpa using List.find?_some found
      exact List.append_nil _

/-- When a vertex is entered, its entries are no longer untouched, and all others are as before. -/
theorem untouched_perm (graph : Digraph V) {vertex : V} {visited : List V}
    (fresh : vertex ∉ visited) :
    (graph.untouched visited).Perm
      (listedFrom vertex 0 (graph.targets vertex) ++ graph.untouched (vertex :: visited)) := by
  have ofVertex : ((graph.entries.filter fun entry => !visited.contains entry.1).filter
      fun entry => entry.1 == vertex) = (graph.entries.filter fun entry => entry.1 == vertex) := by
    rw [List.filter_filter]
    apply List.filter_congr
    intro entry _
    cases equal : entry.1 == vertex with
    | false => rfl
    | true => simp [eq_of_beq equal, fresh]
  have ofOthers : ((graph.entries.filter fun entry => !visited.contains entry.1).filter
      fun entry => !(entry.1 == vertex)) =
      graph.entries.filter fun entry => !(vertex :: visited).contains entry.1 := by
    rw [List.filter_filter]
    apply List.filter_congr
    intro entry _
    simp [BEq.comm]
  have parted := List.filter_append_perm (fun entry => entry.1 == vertex)
    (graph.entries.filter fun entry => !visited.contains entry.1)
  rw [ofVertex, ofOthers] at parted
  have listing := (parted.flatMap_right fun entry => listedFrom entry.1 0 entry.2).symm
  rw [List.flatMap_append, listed_of_vertex] at listing
  exact listing

namespace Search

variable {graph : Digraph V} {search : Search V} {vertex target : V} {remaining : List V}
  {frames : List (Frame V)}

omit [LawfulBEq V] in
/-- The entry that the next step examines comes first among those outstanding. -/
theorem outstanding_look (coherent : Coherent graph search)
    (top : search.stack = ⟨vertex, target :: remaining⟩ :: frames) :
    outstanding graph search =
      (search.events graph).filterMap Event.examined? ++
        outstanding graph { search with stack := ⟨vertex, remaining⟩ :: frames } := by
  have examined : (search.events graph).filterMap Event.examined? =
      [⟨vertex, (graph.targets vertex).length - (remaining.length + 1), target⟩] := by
    simp only [events, top]
    split <;> rfl
  have suffix := coherent.remaining ⟨vertex, target :: remaining⟩ (by simp [top])
  have short : remaining.length + 1 ≤ (graph.targets vertex).length := suffix.length_le
  have next : (graph.targets vertex).length - (remaining.length + 1) + 1 =
      (graph.targets vertex).length - remaining.length := by omega
  rw [examined]
  simp only [outstanding, unfinished, top, List.flatMap_cons, List.length_cons, listedFrom_cons,
    next, List.cons_append, List.nil_append]

/-- A vertex that is entered brings its untouched entries onto the stack. -/
theorem outstanding_enter (graph : Digraph V) (search : Search V)
    (fresh : target ∉ search.visited) :
    (outstanding graph search).Perm (outstanding graph (search.enter graph target)) := by
  have moved := (graph.untouched_perm fresh).append_left (unfinished graph search.stack)
  have stacked : unfinished graph (search.enter graph target).stack =
      listedFrom target 0 (graph.targets target) ++ unfinished graph search.stack := by
    simp [unfinished, enter]
  rw [outstanding, outstanding, stacked, List.append_assoc]
  exact moved.trans (List.perm_append_comm_assoc _ _ _)

/-- A step takes the entry that it examines away from those outstanding, and no other. -/
theorem outstanding_step (coherent : Coherent graph search) (busy : search.stack ≠ []) :
    (outstanding graph search).Perm
      ((search.events graph).filterMap Event.examined? ++
        outstanding graph (search.step graph)) := by
  have moved := move_step graph search busy
  generalize search.step graph = after at moved ⊢
  cases moved with
  | @leave vertex frames top =>
      have nothing : search.events graph = [] := by simp only [events, top]
      have finished : unfinished graph search.stack = unfinished graph frames := by
        rw [top, unfinished, List.flatMap_cons]
        rfl
      rw [nothing, outstanding, finished]
      exact .refl _
  | @enter vertex target remaining frames top fresh =>
      rw [outstanding_look coherent top]
      apply List.Perm.append_left
      exact outstanding_enter graph { search with stack := ⟨vertex, remaining⟩ :: frames } fresh
  | close top known onStack =>
      rw [outstanding_look coherent top]
      exact .refl _
  | pass top known offStack =>
      rw [outstanding_look coherent top]

/-- What was outstanding before a run has been examined in it or is outstanding after it. -/
theorem outstanding_run (coherent : Coherent graph search) :
    (outstanding graph search).Perm
      ((search.runEvents graph).filterMap Event.examined? ++
        outstanding graph (search.run graph)) := by
  induction search using run.induct graph with
  | case1 search idle =>
      rw [run, runEvents, dif_pos idle, dif_pos idle]
      exact .refl _
  | case2 search busy ih =>
      have rest := ih (coherent.move (move_step graph search busy))
      rw [run, runEvents, dif_neg busy, dif_neg busy, List.filterMap_append, List.append_assoc]
      exact (outstanding_step coherent busy).trans (rest.append_left _)

theorem outstanding_visitRoot (idle : search.stack = []) (coherent : Coherent graph search)
    (root : V) :
    (outstanding graph search).Perm
      ((search.rootEvents graph root).filterMap Event.examined? ++
        outstanding graph (search.visitRoot graph root)) := by
  rw [visitRoot, rootEvents]
  split
  · exact .refl _
  · rename_i unknown
    have fresh : root ∉ search.visited := List.contains_iff_mem.not.1 unknown
    exact (outstanding_enter graph search fresh).trans
      (outstanding_run (coherent.root idle fresh))

theorem outstanding_visitRoots (roots : List V) (idle : search.stack = [])
    (coherent : Coherent graph search) :
    (outstanding graph search).Perm
      ((search.rootsEvents graph roots).filterMap Event.examined? ++
        outstanding graph (roots.foldl (visitRoot graph) search)) := by
  induction roots generalizing search with
  | nil => exact .refl _
  | cons root roots ih =>
      have rest := ih (stack_visitRoot idle root) (coherent_visitRoot idle coherent root)
      rw [rootsEvents, List.foldl_cons, List.filterMap_append, List.append_assoc]
      exact (outstanding_visitRoot idle coherent root).trans (rest.append_left _)

end Search

/-- After the search nothing is outstanding. -/
theorem outstanding_search (graph : Digraph V) : graph.search.outstanding graph = [] := by
  have allVisited : (graph.entries.filter fun entry => !graph.search.visited.contains entry.1) =
      [] := by
    rw [List.filter_eq_nil_iff]
    intro entry member
    have isKey : entry.1 ∈ graph.keys := List.mem_map_of_mem member
    have visited : entry.1 ∈ graph.search.visited := Search.mem_visited_visitRoots isKey rfl
    simp [visited]
  rw [Search.outstanding, stack_search, untouched, allVisited]
  rfl

/-- Every entry of every target list is examined once. -/
theorem perm_examined (graph : Digraph V) :
    (graph.events.filterMap Event.examined?).Perm graph.listed := by
  have start : Search.outstanding graph {} = graph.listed := by
    simp [Search.outstanding, Search.unfinished, untouched, listed]
  have done : (Search.outstanding graph {}).Perm (graph.events.filterMap Event.examined? ++
      graph.search.outstanding graph) := Search.outstanding_visitRoots graph.keys rfl .start
  rw [start, outstanding_search, List.append_nil] at done
  exact done.symm

/-! ## Round by round -/

/-- The search of a graph after some of the roots. -/
def searchFrom (graph : Digraph V) (roots : List V) : Search V :=
  roots.foldl (Search.visitRoot graph) {}

/-- The search some rounds after it has entered a root that comes behind earlier ones. -/
def underRoot (graph : Digraph V) (earlier : List V) (root : V) (rounds : Nat) : Search V :=
  (Search.step graph)^[rounds] ((graph.searchFrom earlier).enter graph root)

namespace Search

/-- The books of a search agree: the path is the stack from the outside in, it goes from each
vertex to one of its targets and repeats none, its vertices are those on the stack, and these have
been visited. -/
structure InStep (graph : Digraph V) (search : Search V) : Prop where
  path : search.path = (search.stack.map Frame.vertex).reverse
  nodup : search.path.Nodup
  linked : search.path.IsChain fun vertex next => next ∈ graph.targets vertex
  onStack : ∀ vertex, vertex ∈ search.path ↔ vertex ∈ search.onStack
  visited : search.onStack ⊆ search.visited

variable {graph : Digraph V} {search : Search V}

theorem Coherent.inStep (coherent : Coherent graph search) : InStep graph search where
  path := coherent.path
  nodup := by
    rw [coherent.path, List.nodup_reverse]
    exact coherent.nodup
  linked := by
    rw [coherent.path, List.isChain_reverse]
    exact coherent.linked.imp fun _ _ edge => edge_iff_mem.1 edge
  onStack := by simp [coherent.path, coherent.onStack]
  visited := by
    rw [coherent.onStack]
    exact coherent.visited

omit [LawfulBEq V] in
theorem Coherent.path_eq_nil (coherent : Coherent graph search) (idle : search.stack = []) :
    search.path = [] ∧ search.onStack = [] := by
  rw [coherent.path, coherent.onStack, active, idle]
  exact ⟨rfl, rfl⟩

theorem Coherent.step (coherent : Coherent graph search) : Coherent graph (search.step graph) := by
  cases isStack : search.stack with
  | nil =>
      rw [Search.step, isStack]
      exact coherent
  | cons frame frames =>
      exact coherent.move (move_step graph search (by simp [isStack]))

theorem Coherent.rounds (coherent : Coherent graph search) (rounds : Nat) :
    Coherent graph ((Search.step graph)^[rounds] search) := by
  induction rounds with
  | zero => exact coherent
  | succ rounds ih =>
      rw [Function.iterate_succ_apply']
      exact ih.step

/-- With the books right, the checks of a step are passed. -/
theorem step?_eq (coherent : Coherent graph search) :
    search.step? graph = some (search.step graph) := by
  obtain ⟨next, stepped⟩ := exists_step? coherent
  rw [stepped, eq_step_of_step? stepped]

theorem exists_rounds_eq_run (graph : Digraph V) (search : Search V) :
    ∃ rounds, (Search.step graph)^[rounds] search = search.run graph := by
  induction search using run.induct graph with
  | case1 search idle => exact ⟨0, by rw [run, dif_pos idle]; rfl⟩
  | case2 search busy ih =>
      obtain ⟨rounds, ended⟩ := ih
      refine ⟨rounds + 1, ?_⟩
      rw [Function.iterate_succ_apply, ended, run.eq_1 graph search, dif_neg busy]

end Search

variable {graph : Digraph V} {earlier : List V} {root : V}

theorem coherent_underRoot (fresh : root ∉ (graph.searchFrom earlier).visited) (rounds : Nat) :
    (graph.underRoot earlier root rounds).Coherent graph := by
  have before : (graph.searchFrom earlier).Coherent graph :=
    Search.visitRoots_induct (Search.Coherent graph) .root .move earlier rfl .start
  have idle : (graph.searchFrom earlier).stack = [] := Search.stack_visitRoots earlier rfl
  exact (before.root idle fresh).rounds rounds

/-- The rounds under a root come to an end, when the search goes on to the next root. -/
theorem exists_rounds_underRoot (fresh : root ∉ (graph.searchFrom earlier).visited) :
    ∃ rounds, graph.underRoot earlier root rounds = graph.searchFrom (earlier ++ [root]) := by
  have visits : graph.searchFrom (earlier ++ [root]) =
      ((graph.searchFrom earlier).enter graph root).run graph := by
    rw [searchFrom, List.foldl_append]
    exact if_neg (List.contains_iff_mem.not.2 fresh)
  rw [visits]
  exact Search.exists_rounds_eq_run graph _

end ImportAtlas.Digraph
