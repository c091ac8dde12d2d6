import ImportAtlas.Digraph

/-!
# Clusters

A pool of vertices is split into clusters. A cluster is what the first vertex left in the pool
leads to inside the pool, breadth first; it then leaves the pool.
-/

namespace ImportAtlas.Digraph

variable {V : Type} [BEq V]

/-- A cluster that grows: members in the order in which they were found, and those of them
whose targets are still to be looked at. -/
structure Growth (V : Type) where
  queue : List V
  members : List V

namespace Growth

/-- Take a vertex of the pool into the cluster unless it is a member. -/
def recruit (pool : List V) (growth : Growth V) (vertex : V) : Growth V :=
  if pool.contains vertex && !growth.members.contains vertex then
    ⟨growth.queue ++ [vertex], growth.members ++ [vertex]⟩
  else growth

/-- How many vertices of a pool are no members. -/
def unclaimed (pool members : List V) : Nat :=
  pool.countP fun vertex => !members.contains vertex

theorem unclaimed_append_le (pool members : List V) (vertex : V) :
    unclaimed pool (members ++ [vertex]) ≤ unclaimed pool members :=
  List.countP_mono_left fun other _ outside => by simp_all

theorem unclaimed_append_lt [EquivBEq V] {pool members : List V} {vertex : V}
    (inPool : pool.contains vertex = true) (fresh : members.contains vertex = false) :
    unclaimed pool (members ++ [vertex]) < unclaimed pool members := by
  induction pool with
  | nil => simp at inPool
  | cons first rest ih =>
      have le := unclaimed_append_le rest members vertex
      simp only [unclaimed, List.countP_cons] at le ih ⊢
      by_cases equal : (first == vertex) = true
      · have absent : members.contains first = false := by
          rw [List.contains_congr equal]; exact fresh
        have present : (members ++ [vertex]).contains first = true := by simp [equal]
        simp only [absent, present, Bool.not_true, Bool.false_eq_true, if_false, Bool.not_false,
          if_true]
        omega
      · have symmetric : (vertex == first) = false := by
          rw [BEq.comm]; simpa using equal
        have inRest : rest.contains vertex = true := by
          simpa only [List.contains_cons, symmetric, Bool.false_or] using inPool
        have step := ih inRest
        have unchanged : (members ++ [vertex]).contains first = members.contains first := by
          simp [equal]
        rw [unchanged]
        omega

/-- Work left: looking at a queued vertex costs one, an unclaimed vertex may cost two. -/
def work (pool : List V) (growth : Growth V) : Nat :=
  growth.queue.length + 2 * unclaimed pool growth.members

theorem work_recruit_le [EquivBEq V] (pool : List V) (growth : Growth V) (vertex : V) :
    work pool (growth.recruit pool vertex) ≤ work pool growth := by
  unfold recruit
  split
  · rename_i new
    rw [Bool.and_eq_true, Bool.not_eq_true'] at new
    have lt := unclaimed_append_lt new.1 new.2
    simp only [work, List.length_append, List.length_singleton]
    omega
  · exact Nat.le_refl _

theorem work_recruitAll_le [EquivBEq V] (pool : List V) (vertices : List V) (growth : Growth V) :
    work pool (vertices.foldl (recruit pool) growth) ≤ work pool growth := by
  induction vertices generalizing growth with
  | nil => exact Nat.le_refl _
  | cons vertex rest ih => exact Nat.le_trans (ih _) (work_recruit_le pool growth vertex)

/-- Look at queued vertices until none is left. -/
def run [EquivBEq V] (graph : Digraph V) (pool : List V) (growth : Growth V) : List V :=
  match _queued : growth.queue with
  | [] => growth.members
  | vertex :: queue =>
      run graph pool ((graph.targets vertex).foldl (recruit pool) ⟨queue, growth.members⟩)
termination_by growth.work pool
decreasing_by
  have le := work_recruitAll_le pool (graph.targets vertex) ⟨queue, growth.members⟩
  have lt : work pool ⟨queue, growth.members⟩ < growth.work pool := by simp [work, _queued]
  omega

end Growth

/-- What a seed leads to inside a pool, in breadth-first order. -/
def clusterOf [EquivBEq V] (graph : Digraph V) (pool : List V) (seed : V) : List V :=
  Growth.run graph pool ⟨[seed], [seed]⟩

/-- The vertices of a pool that are no members. -/
def outside (members pool : List V) : List V :=
  pool.filter fun vertex => !members.contains vertex

theorem length_outside_le (members pool : List V) :
    (outside members pool).length ≤ pool.length := List.length_filter_le _ _

/-- Split a pool without repetitions, cluster by cluster. -/
def splitPool [EquivBEq V] (graph : Digraph V) (pool : List V) : List (List V) :=
  match pool with
  | [] => []
  | seed :: rest =>
      let members := graph.clusterOf (seed :: rest) seed
      members :: splitPool graph (outside members rest)
termination_by pool.length
decreasing_by exact Nat.lt_succ_of_le (length_outside_le _ _)

/-- Split vertices into clusters. -/
def collectClusters [EquivBEq V] (vertices : List V) (graph : Digraph V) : List (List V) :=
  graph.splitPool vertices.eraseDups

end ImportAtlas.Digraph
