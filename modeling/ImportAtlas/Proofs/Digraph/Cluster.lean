import ImportAtlas.Digraph.Cluster
import ImportAtlas.Proofs.Digraph.ClosedWalk
import ImportAtlas.Proofs.Distinct

/-!
# Clusters share out their pool

Every vertex of a pool ends up in exactly one cluster. A cluster takes its members from the pool
that is left, takes none twice and takes at least its seed, and what it takes leaves the pool. It
takes all that its members point to, so a cycle inside the pool is never split.
-/

namespace ImportAtlas.Digraph

variable {V : Type} [BEq V] [EquivBEq V] {graph : Digraph V} {pool : List V} {seed : V}

namespace Growth

/-- Members come from the pool, none is taken twice, and the seed is one of them. -/
structure Sound (pool : List V) (seed : V) (growth : Growth V) : Prop where
  distinct : Distinct growth.members
  inPool : ∀ vertex ∈ growth.members, pool.contains vertex = true
  seed : seed ∈ growth.members

variable {growth : Growth V}

theorem Sound.recruit (sound : Sound pool seed growth) (vertex : V) :
    Sound pool seed (growth.recruit pool vertex) := by
  unfold Growth.recruit
  split
  · rename_i new
    rw [Bool.and_eq_true, Bool.not_eq_true'] at new
    refine ⟨sound.distinct.concat new.2, ?_, List.mem_append_left _ sound.seed⟩
    intro member isMember
    rcases List.mem_append.1 isMember with old | isNew
    · exact sound.inPool member old
    · rw [List.mem_singleton.1 isNew]
      exact new.1
  · exact sound

theorem Sound.recruitAll (sound : Sound pool seed growth) (vertices : List V) :
    Sound pool seed (vertices.foldl (Growth.recruit pool) growth) := by
  induction vertices generalizing growth with
  | nil => exact sound
  | cons vertex rest ih => exact ih (sound.recruit vertex)

/-- What looking at a queued vertex keeps, holds of the cluster when the queue is empty. -/
theorem run_induct (graph : Digraph V) (pool : List V) (property : Growth V → Prop)
    (look : ∀ {vertex queue members}, property ⟨vertex :: queue, members⟩ →
      property ((graph.targets vertex).foldl (Growth.recruit pool) ⟨queue, members⟩))
    (growth : Growth V) (start : property growth) : property ⟨[], growth.run graph pool⟩ := by
  induction growth using run.induct graph pool with
  | case1 growth idle =>
      obtain ⟨queue, members⟩ := growth
      subst idle
      rw [run]
      exact start
  | case2 growth vertex queue queued ih =>
      obtain ⟨waiting, members⟩ := growth
      subst queued
      rw [run]
      exact ih (look start)

/-- What looking at some vertices does to a cluster: nothing is lost, a new member is queued, and
those of the vertices that are in the pool are members. -/
structure Grown (pool vertices : List V) (before after : Growth V) : Prop where
  queue : before.queue ⊆ after.queue
  members : before.members ⊆ after.members
  queued : ∀ vertex ∈ after.members, vertex ∈ before.members ∨ vertex ∈ after.queue
  taken : ∀ vertex ∈ vertices, pool.contains vertex = true → after.members.contains vertex = true

omit [EquivBEq V] in
theorem contains_of_subset {smaller larger : List V} (subset : smaller ⊆ larger) {vertex : V}
    (member : smaller.contains vertex = true) : larger.contains vertex = true := by
  obtain ⟨other, isMember, equal⟩ := List.contains_iff_exists_mem_beq.1 member
  exact List.contains_iff_exists_mem_beq.2 ⟨other, subset isMember, equal⟩

theorem Grown.recruit (pool : List V) (growth : Growth V) (vertex : V) :
    Grown pool [vertex] growth (growth.recruit pool vertex) := by
  unfold Growth.recruit
  split
  · refine ⟨List.subset_append_left _ _, List.subset_append_left _ _, ?_, ?_⟩
    · intro member isMember
      exact (List.mem_append.1 isMember).imp_right (List.mem_append_right _)
    · intro target isTarget inPool
      exact List.elem_eq_true_of_mem (List.mem_append_right _ isTarget)
  · rename_i known
    refine ⟨fun _ => id, fun _ => id, fun _ => .inl, ?_⟩
    intro target isTarget inPool
    rw [List.mem_singleton.1 isTarget] at inPool ⊢
    simpa [inPool] using known

theorem Grown.recruitAll (pool vertices : List V) (growth : Growth V) :
    Grown pool vertices growth (vertices.foldl (Growth.recruit pool) growth) := by
  induction vertices generalizing growth with
  | nil => exact ⟨fun _ => id, fun _ => id, fun _ => .inl, by simp⟩
  | cons vertex rest ih =>
      have first := Grown.recruit pool growth vertex
      have others := ih (growth.recruit pool vertex)
      refine ⟨List.Subset.trans first.queue others.queue,
        List.Subset.trans first.members others.members, ?_, ?_⟩
      · intro member isMember
        rcases others.queued member isMember with earlier | isQueued
        · exact (first.queued member earlier).imp_right fun isQueued => others.queue isQueued
        · exact .inr isQueued
      · intro target isTarget inPool
        rcases List.mem_cons.1 isTarget with rfl | isTarget
        · exact contains_of_subset others.members
            (first.taken target (List.mem_singleton.2 rfl) inPool)
        · exact others.taken target isTarget inPool

/-- A member whose targets have not been looked at is queued. -/
def Followed (graph : Digraph V) (pool : List V) (growth : Growth V) : Prop :=
  ∀ {source target}, source ∈ growth.members → graph.Edge source target →
    pool.contains target = true → source ∈ growth.queue ∨ growth.members.contains target = true

theorem Followed.look {vertex : V} {queue members : List V}
    (followed : Followed graph pool ⟨vertex :: queue, members⟩) :
    Followed graph pool ((graph.targets vertex).foldl (Growth.recruit pool) ⟨queue, members⟩) := by
  have grown := Grown.recruitAll pool (graph.targets vertex) ⟨queue, members⟩
  intro source target isMember edge inPool
  rcases grown.queued source isMember with old | isQueued
  · rcases followed old edge inPool with waiting | known
    · rcases List.mem_cons.1 waiting with rfl | waiting
      · obtain ⟨other, isTarget, equal⟩ := List.contains_iff_exists_mem_beq.1 edge
        rw [List.contains_congr equal] at inPool ⊢
        exact .inr (grown.taken other isTarget inPool)
      · exact .inl (grown.queue waiting)
    · exact .inr (contains_of_subset grown.members known)
  · exact .inl isQueued

end Growth

/-- A cluster holds all of the pool that its members point to. -/
theorem clusterOf_closed {source target : V}
    (isMember : (graph.clusterOf pool seed).contains source = true)
    (edge : graph.Edge source target) (inPool : pool.contains target = true) :
    (graph.clusterOf pool seed).contains target = true := by
  have followed : Growth.Followed graph pool ⟨[], graph.clusterOf pool seed⟩ := by
    apply Growth.run_induct graph pool (Growth.Followed graph pool)
    · intro vertex queue members followed
      exact followed.look
    · intro source target isMember edge inPool
      exact .inl isMember
  obtain ⟨member, inCluster, equal⟩ := List.contains_iff_exists_mem_beq.1 isMember
  have memberEdge := edge.congr equal (BEq.refl target)
  exact (followed inCluster memberEdge inPool).resolve_left List.not_mem_nil

theorem clusterOf_sound (inPool : pool.contains seed = true) :
    Growth.Sound pool seed ⟨[], graph.clusterOf pool seed⟩ := by
  apply Growth.run_induct graph pool (Growth.Sound pool seed)
  · intro vertex queue members sound
    have unqueued : Growth.Sound pool seed ⟨queue, members⟩ :=
      ⟨sound.distinct, sound.inPool, sound.seed⟩
    exact unqueued.recruitAll (graph.targets vertex)
  · refine ⟨List.pairwise_singleton _ _, ?_, List.mem_singleton.2 rfl⟩
    intro vertex isSeed
    rw [List.mem_singleton.1 isSeed]
    exact inPool

/-- The seed is a member of its cluster, so what the cluster misses is not the seed. -/
theorem ne_seed_of_missed {rest : List V} {vertex : V}
    (missed : (graph.clusterOf (seed :: rest) seed).contains vertex = false) :
    (vertex == seed) = false := by
  have sound : Growth.Sound (seed :: rest) seed ⟨[], graph.clusterOf (seed :: rest) seed⟩ :=
    clusterOf_sound (by simp)
  rw [Bool.eq_false_iff]
  intro equal
  rw [List.contains_congr equal, ← Bool.not_eq_true] at missed
  exact missed (List.elem_eq_true_of_mem sound.seed)

/-! ## Splitting a pool -/

theorem contains_outside (members pool : List V) (vertex : V) :
    (outside members pool).contains vertex =
      (pool.contains vertex && !members.contains vertex) := by
  apply contains_filter
  intro left right equal
  rw [List.contains_congr equal]

/-- The clusters hold what the pool held. -/
theorem contains_flatten_splitPool (graph : Digraph V) (pool : List V) (vertex : V) :
    (graph.splitPool pool).flatten.contains vertex = pool.contains vertex := by
  induction pool using splitPool.induct graph with
  | case1 =>
      rw [splitPool]
      rfl
  | case2 seed rest members ih =>
      rw [splitPool, List.flatten_cons, List.contains_append, ih, contains_outside]
      have sound : Growth.Sound (seed :: rest) seed ⟨[], members⟩ := clusterOf_sound (by simp)
      change (members.contains vertex || (rest.contains vertex && !members.contains vertex)) = _
      cases isMember : members.contains vertex with
      | true =>
          obtain ⟨member, inMembers, equal⟩ := List.contains_iff_exists_mem_beq.1 isMember
          have inPool := sound.inPool member inMembers
          rw [← List.contains_congr equal] at inPool
          rw [inPool]
          rfl
      | false =>
          rw [List.contains_cons, ne_seed_of_missed isMember]
          simp

/-- No vertex is in two clusters, or twice in one. -/
theorem distinct_flatten_splitPool (graph : Digraph V) {pool : List V} (distinct : Distinct pool) :
    Distinct (graph.splitPool pool).flatten := by
  induction pool using splitPool.induct graph with
  | case1 =>
      rw [splitPool]
      exact .nil
  | case2 seed rest members ih =>
      rw [splitPool, List.flatten_cons]
      have sound : Growth.Sound (seed :: rest) seed ⟨[], members⟩ := clusterOf_sound (by simp)
      have restDistinct : Distinct (outside members rest) :=
        (List.pairwise_cons.1 distinct).2.filter _
      apply sound.distinct.append (ih restDistinct)
      intro first isMember second isLater
      -- A later member was outside this cluster when the pool was split again.
      have secondOutside : (outside members rest).contains second = true := by
        rw [← contains_flatten_splitPool graph]
        exact List.elem_eq_true_of_mem isLater
      rw [contains_outside, Bool.and_eq_true, Bool.not_eq_true'] at secondOutside
      rw [Bool.eq_false_iff]
      intro equal
      have secondInside : members.contains second = true :=
        List.contains_iff_exists_mem_beq.2 ⟨first, isMember, BEq.symm equal⟩
      rw [secondOutside.2] at secondInside
      cases secondInside

/-- A cycle inside the pool ends up in one cluster: the first cluster that takes one of its
vertices takes them all, and until then all of them stay in the pool. -/
theorem exists_cluster_of_isCycle {walk : List V} (isCycle : graph.IsCycle walk)
    (inPool : ∀ vertex ∈ walk, pool.contains vertex = true) :
    ∃ cluster ∈ graph.splitPool pool, ∀ vertex ∈ walk, cluster.contains vertex = true := by
  induction pool using splitPool.induct graph with
  | case1 =>
      obtain ⟨first, isFirst⟩ := List.exists_mem_of_ne_nil walk isCycle.nonempty
      have absurd := inPool first isFirst
      simp at absurd
  | case2 seed rest members ih =>
      rw [splitPool]
      by_cases touched : ∃ first ∈ walk, members.contains first = true
      · obtain ⟨first, isFirst, firstTaken⟩ := touched
        refine ⟨members, List.mem_cons_self, ?_⟩
        intro vertex isVertex
        have taken : vertex ∈ walk ∧ members.contains vertex = true := by
          apply Follows.spread (fun other => other ∈ walk ∧ members.contains other = true) _
            isFirst ⟨isFirst, firstTaken⟩ isVertex
          rintro source target follows ⟨-, sourceTaken⟩
          have onWalk := follows.mem_right
          exact ⟨onWalk, clusterOf_closed sourceTaken (isCycle.edge follows) (inPool target onWalk)⟩
        exact taken.2
      · have stay : ∀ vertex ∈ walk, (outside members rest).contains vertex = true := by
          intro vertex isVertex
          have missed : members.contains vertex = false := by
            rw [Bool.eq_false_iff]
            exact fun taken => touched ⟨vertex, isVertex, taken⟩
          have left := inPool vertex isVertex
          rw [List.contains_cons, ne_seed_of_missed missed, Bool.false_or] at left
          rw [contains_outside, left, missed]
          rfl
        obtain ⟨cluster, isCluster, holdsAll⟩ := ih stay
        exact ⟨cluster, List.mem_cons_of_mem _ isCluster, holdsAll⟩

theorem contains_flatten_collectClusters (vertices : List V) (graph : Digraph V) (vertex : V) :
    (collectClusters vertices graph).flatten.contains vertex = vertices.contains vertex := by
  unfold collectClusters
  rw [contains_flatten_splitPool, contains_eraseDups]

theorem distinct_flatten_collectClusters (vertices : List V) (graph : Digraph V) :
    Distinct (collectClusters vertices graph).flatten :=
  distinct_flatten_splitPool graph (distinct_eraseDups vertices)

end ImportAtlas.Digraph
