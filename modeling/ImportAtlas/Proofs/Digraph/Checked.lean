import ImportAtlas.Proofs.Digraph.Cluster
import ImportAtlas.Proofs.Digraph.Search

/-!
# Searches that check their steps

Some steps of a search make sense only in some states: leaving a vertex takes the last one off the
path, closing a cycle looks for a vertex on the path, and a cluster that is complete is deleted from
the pool. Here these steps have no result where they make no sense, and a search that comes to one
has no result either. The bookkeeping of the searches shows that they never come to one, so with
the checks they find what they find without.
-/

namespace ImportAtlas.Digraph

variable {V : Type} [BEq V]

/-! ## The depth-first search -/

namespace Search

/-- A step that can leave a vertex only if there is a path, and close a cycle only with a vertex on
the path. -/
def step? (graph : Digraph V) (search : Search V) : Option (Search V) :=
  match search.stack with
  | [] => some search
  | ⟨vertex, []⟩ :: frames =>
      if search.path = [] then none
      else some { search with
        onStack := search.onStack.erase vertex
        path := search.path.dropLast
        stack := frames }
  | ⟨vertex, target :: remaining⟩ :: frames =>
      let search := { search with stack := ⟨vertex, remaining⟩ :: frames }
      if !search.visited.contains target then some (search.enter graph target)
      else if search.onStack.contains target then
        (search.path.idxOf? target).map fun start =>
          { search with cycles := search.cycles ++ [search.path.drop start] }
      else some search

theorem drop_of_idxOf? {vertex : V} {path : List V} {start : Nat}
    (found : path.idxOf? vertex = some start) : path.drop start = sliceFrom vertex path := by
  induction path generalizing start with
  | nil => cases found
  | cons first rest ih =>
      rw [List.idxOf?_cons] at found
      cases equal : first == vertex with
      | true =>
          rw [equal, if_pos rfl] at found
          cases found
          simp [sliceFrom, equal]
      | false =>
          rw [equal, if_neg Bool.false_ne_true, Option.map_eq_some_iff] at found
          rcases found with ⟨later, isLater, rfl⟩
          rw [List.drop_succ_cons, ih isLater]
          simp [sliceFrom, equal]

/-- A step with a result is the step without checks. -/
theorem eq_step_of_step? {graph : Digraph V} {search next : Search V}
    (stepped : search.step? graph = some next) : next = search.step graph := by
  rcases search with ⟨visited, onStack, path, stack, cycles⟩
  match stack with
  | [] =>
      cases stepped
      rfl
  | ⟨vertex, []⟩ :: frames =>
      simp only [step?] at stepped
      split at stepped
      · cases stepped
      · cases stepped
        rfl
  | ⟨vertex, target :: remaining⟩ :: frames =>
      simp only [step?, step] at stepped ⊢
      split at stepped
      · rename_i fresh
        rw [if_pos fresh]
        exact (Option.some.inj stepped).symm
      · rename_i known
        rw [if_neg known]
        split at stepped
        · rename_i active
          rw [Option.map_eq_some_iff] at stepped
          rcases stepped with ⟨start, found, rfl⟩
          rw [if_pos active, drop_of_idxOf? found]
        · rename_i inactive
          rw [if_neg inactive]
          exact (Option.some.inj stepped).symm

/-- A run of checked steps. -/
def run? [EquivBEq V] (graph : Digraph V) (search : Search V) : Option (Search V) :=
  if _active : search.stack = [] then some search
  else
    match _stepped : search.step? graph with
    | none => none
    | some next => run? graph next
termination_by search.work graph
decreasing_by
  rw [eq_step_of_step? _stepped]
  exact work_step_lt graph search _active

def visitRoot? [EquivBEq V] (graph : Digraph V) (search : Search V) (root : V) :
    Option (Search V) :=
  if search.visited.contains root then some search else (search.enter graph root).run? graph

end Search

/-- The cycles that a search with checks finds. -/
def findCycles? [EquivBEq V] (graph : Digraph V) : Option (List (List V)) :=
  (graph.keys.foldlM (Search.visitRoot? graph) {}).map Search.cycles

namespace Search

variable [LawfulBEq V] {graph : Digraph V} {search : Search V}

/-- With the bookkeeping right, every step has a result. -/
theorem exists_step? (coherent : Coherent graph search) :
    ∃ next, search.step? graph = some next := by
  rcases search with ⟨visited, onStack, path, stack, cycles⟩
  match stack with
  | [] => exact ⟨_, rfl⟩
  | ⟨vertex, []⟩ :: frames =>
      have isPath : path = (vertex :: frames.map Frame.vertex).reverse := coherent.path
      have onPath : path ≠ [] := by simp [isPath]
      simp only [step?, if_neg onPath]
      exact ⟨_, rfl⟩
  | ⟨vertex, target :: remaining⟩ :: frames =>
      simp only [step?]
      split
      · exact ⟨_, rfl⟩
      · split
        · rename_i isActive
          have isPath : path = onStack.reverse :=
            coherent.path.trans (congrArg List.reverse coherent.onStack.symm)
          have onPath : target ∈ path := by
            rw [isPath, List.mem_reverse]
            exact List.contains_iff_mem.1 isActive
          rcases Option.isSome_iff_exists.1 (List.isSome_idxOf?.2 onPath) with ⟨start, found⟩
          rw [found]
          exact ⟨_, rfl⟩
        · exact ⟨_, rfl⟩

theorem run?_eq (coherent : Coherent graph search) :
    search.run? graph = some (search.run graph) := by
  induction search using run.induct graph with
  | case1 search idle => rw [run?, run, dif_pos idle, dif_pos idle]
  | case2 search busy ih =>
      rcases exists_step? coherent with ⟨next, stepped⟩
      rw [run?, run, dif_neg busy, dif_neg busy]
      split
      · rename_i stuck
        rw [stepped] at stuck
        cases stuck
      · rename_i other otherStepped
        rw [eq_step_of_step? otherStepped]
        exact ih (coherent.move (move_step graph search busy))

theorem coherent_visitRoot (idle : search.stack = []) (coherent : Coherent graph search)
    (root : V) : Coherent graph (search.visitRoot graph root) :=
  visitRoots_induct (Coherent graph) .root .move [root] idle coherent

theorem visitRoot?_eq (idle : search.stack = []) (coherent : Coherent graph search) (root : V) :
    search.visitRoot? graph root = some (search.visitRoot graph root) := by
  rw [visitRoot?, visitRoot]
  split
  · rfl
  · rename_i fresh
    apply run?_eq
    exact coherent.root idle (List.contains_iff_mem.not.1 fresh)

theorem visitRoots?_eq (roots : List V) (idle : search.stack = [])
    (coherent : Coherent graph search) :
    roots.foldlM (visitRoot? graph) search = some (roots.foldl (visitRoot graph) search) := by
  induction roots generalizing search with
  | nil => rfl
  | cons root rest ih =>
      rw [List.foldlM_cons, visitRoot?_eq idle coherent]
      exact ih (stack_visitRoot idle root) (coherent_visitRoot idle coherent root)

end Search

/-- The search comes to no step that has no result. -/
theorem findCycles?_eq [LawfulBEq V] (graph : Digraph V) :
    graph.findCycles? = some graph.findCycles := by
  rw [findCycles?, Search.visitRoots?_eq graph.keys rfl .start]
  rfl

/-! ## Clusters -/

/-- A pool without a vertex that must be in it. -/
def delete? (pool : List V) (vertex : V) : Option (List V) :=
  if pool.contains vertex then some (pool.erase vertex) else none

variable [EquivBEq V]

theorem length_of_delete? {pool left : List V} {vertex : V}
    (deleted : delete? pool vertex = some left) : left.length + 1 = pool.length := by
  rw [delete?] at deleted
  split at deleted
  · rename_i known
    rcases List.contains_iff_exists_mem_beq.1 known with ⟨other, member, equal⟩
    cases deleted
    rw [List.erase_eq_eraseP', List.length_eraseP_of_mem (p := (· == vertex)) member
      (BEq.symm equal)]
    have positive := List.length_pos_of_mem member
    omega
  · cases deleted

theorem length_of_deleteAll? {members pool left : List V}
    (deleted : members.foldlM delete? pool = some left) :
    left.length + members.length = pool.length := by
  induction members generalizing pool with
  | nil =>
      cases deleted
      rfl
  | cons vertex rest ih =>
      rw [List.foldlM_cons, Option.bind_eq_bind, Option.bind_eq_some_iff] at deleted
      rcases deleted with ⟨next, isNext, deleted⟩
      have first := length_of_delete? isNext
      have others := ih deleted
      rw [List.length_cons]
      omega

/-- Clusters that are deleted from the pool vertex by vertex. -/
def splitPool? (graph : Digraph V) (pool : List V) : Option (List (List V)) :=
  match pool with
  | [] => some []
  | seed :: rest =>
      let members := graph.clusterOf (seed :: rest) seed
      match _deleted : members.foldlM delete? (seed :: rest) with
      | none => none
      | some left => (splitPool? graph left).map (members :: ·)
termination_by pool.length
decreasing_by
  have sound : Growth.Sound (seed :: rest) seed ⟨[], graph.clusterOf (seed :: rest) seed⟩ :=
    clusterOf_sound (by simp)
  have positive : 0 < (graph.clusterOf (seed :: rest) seed).length :=
    List.length_pos_of_mem sound.seed
  have lengths : left.length + (graph.clusterOf (seed :: rest) seed).length = _ :=
    length_of_deleteAll? _deleted
  omega

def collectClusters? (vertices : List V) (graph : Digraph V) : Option (List (List V)) :=
  graph.splitPool? vertices.eraseDups

theorem deleteAll?_eq {members pool : List V} (distinct : Distinct pool)
    (membersDistinct : Distinct members)
    (inPool : ∀ vertex ∈ members, pool.contains vertex = true) :
    members.foldlM delete? pool = some (outside members pool) := by
  induction members generalizing pool with
  | nil => simp [outside]
  | cons vertex rest ih =>
      have deleted : delete? pool vertex = some (outside [vertex] pool) := by
        rw [delete?, if_pos (inPool vertex List.mem_cons_self), distinct.erase_eq_filter]
        simp [outside]
      have othersLeft : ∀ other ∈ rest, (outside [vertex] pool).contains other = true := by
        intro other member
        have different := (List.pairwise_cons.1 membersDistinct).1 other member
        rw [BEq.comm] at different
        rw [contains_outside, inPool other (List.mem_cons_of_mem vertex member)]
        simp [different]
      have together : outside rest (outside [vertex] pool) = outside (vertex :: rest) pool := by
        simp [outside, List.filter_filter, Bool.and_comm]
      rw [List.foldlM_cons, deleted, ← together]
      exact ih (distinct.filter _) membersDistinct.of_cons othersLeft

/-- Every member of a cluster is in the pool when it is deleted. -/
theorem splitPool?_eq {graph : Digraph V} {pool : List V} (distinct : Distinct pool) :
    graph.splitPool? pool = some (graph.splitPool pool) := by
  induction pool using splitPool.induct graph with
  | case1 => rw [splitPool?, splitPool]
  | case2 seed rest members ih =>
      have sound : Growth.Sound (seed :: rest) seed ⟨[], members⟩ := clusterOf_sound (by simp)
      have left : members.foldlM delete? (seed :: rest) = some (outside members rest) := by
        rw [deleteAll?_eq distinct sound.distinct sound.inPool, outside, List.filter_cons_of_neg]
        · rfl
        · simpa using List.elem_eq_true_of_mem sound.seed
      rw [splitPool?, splitPool]
      split
      · rename_i stuck
        cases left.symm.trans stuck
      · rename_i others deleted
        obtain rfl : outside members rest = others := Option.some.inj (left.symm.trans deleted)
        rw [ih (distinct.of_cons.filter _)]
        rfl

theorem collectClusters?_eq (vertices : List V) (graph : Digraph V) :
    collectClusters? vertices graph = some (collectClusters vertices graph) :=
  splitPool?_eq (distinct_eraseDups vertices)

end ImportAtlas.Digraph
