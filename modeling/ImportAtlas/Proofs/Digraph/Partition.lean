import ImportAtlas.Proofs.Digraph.Cluster

/-!
# Clusters by forward reach

A pool is split cluster by cluster, and a cluster looks only at what the earlier ones have left.
Nothing is cut off by that. The clusters made so far hold all of the pool that their members point
to, so a path to a vertex that is left goes through vertices that are left. Hence a cluster is what
its seed leads to in the graph cut down to the whole pool, less the earlier clusters, and an edge
between two clusters leads from the later one to the earlier one.
-/

namespace ImportAtlas.Digraph

variable {V : Type} [BEq V]

/-! ## The graph cut down to some vertices -/

/-- The subgraph on the given vertices. -/
def induced (graph : Digraph V) (vertices : List V) : Digraph V where
  entries := (graph.entries.filter fun entry => vertices.contains entry.1).map fun entry =>
    (entry.1, entry.2.filter vertices.contains)
  distinct := by
    rw [List.pairwise_map]
    exact graph.distinct.filter _

variable [EquivBEq V] {graph : Digraph V} {pool vertices : List V} {seed source target : V}

theorem targets_induced (graph : Digraph V) (vertices : List V) (source : V) :
    (graph.induced vertices).targets source =
      if vertices.contains source then (graph.targets source).filter vertices.contains else [] := by
  have samePredicate : (fun entry : V × List V =>
        decide (vertices.contains entry.1 = true ∧ (entry.1 == source) = true)) =
      fun entry => vertices.contains source && entry.1 == source := by
    funext entry
    cases equal : entry.1 == source with
    | true => simp [← List.contains_congr equal]
    | false => simp
  rw [targets, targets, Table.get?, Table.get?, induced, List.find?_map, Function.comp_def,
    List.find?_filter, samePredicate]
  cases vertices.contains source with
  | false =>
      have nothing : graph.entries.find? (fun entry => false && entry.1 == source) = none := by
        simp
      rw [nothing]
      rfl
  | true => cases found : graph.entries.find? fun entry => entry.1 == source <;> simp [found]

theorem edge_induced_iff :
    (graph.induced vertices).Edge source target ↔
      vertices.contains source = true ∧ vertices.contains target = true ∧
        graph.Edge source target := by
  rw [Edge, targets_induced, Edge]
  cases vertices.contains source with
  | false => simp
  | true =>
      rw [if_pos rfl, contains_filter (fun equal => List.contains_congr equal), Bool.and_eq_true]
      simp [and_comm]

theorem contains_of_leads_induced (inPool : pool.contains seed = true)
    (leads : (graph.induced pool).Leads seed target) : pool.contains target = true := by
  apply leads.induct (pool.contains · = true)
  · intro left right equal isLeft
    rw [← List.contains_congr equal]
    exact isLeft
  · intro left right edge _
    exact (edge_induced_iff.1 edge).2.1
  · exact inPool

/-- A subgraph on more vertices has more paths. -/
theorem Leads.induced_mono (more : ∀ vertex, pool.contains vertex = true →
    vertices.contains vertex = true) (leads : (graph.induced pool).Leads source target) :
    (graph.induced vertices).Leads source target := by
  apply leads.induct ((graph.induced vertices).Leads source)
  · intro left right equal reaches
    exact reaches.congr_right equal
  · intro left right edge reaches
    have inside := edge_induced_iff.1 edge
    exact reaches.tail
      (edge_induced_iff.2 ⟨more left inside.1, more right inside.2.1, inside.2.2⟩)
  · exact .refl _ source

/-! ## One cluster -/

namespace Growth

variable {growth : Growth V}

/-- The cluster begins with its seed, which leads to all members inside the pool. -/
structure Rooted (graph : Digraph V) (pool : List V) (seed : V) (growth : Growth V) : Prop where
  first : growth.members.head? = some seed
  queue : growth.queue ⊆ growth.members
  led : ∀ member ∈ growth.members, (graph.induced pool).Leads seed member

omit [EquivBEq V] in
theorem Rooted.recruit (rooted : Rooted graph pool seed growth) {vertex : V}
    (led : pool.contains vertex = true → (graph.induced pool).Leads seed vertex) :
    Rooted graph pool seed (growth.recruit pool vertex) := by
  unfold Growth.recruit
  split
  · rename_i new
    rw [Bool.and_eq_true] at new
    constructor
    · simp [rooted.first]
    · intro queued isQueued
      simp only [List.mem_append] at isQueued ⊢
      exact isQueued.imp_left (rooted.queue ·)
    · intro member isMember
      cases List.mem_append.1 isMember with
      | inl old => exact rooted.led member old
      | inr isNew =>
          rw [List.mem_singleton.1 isNew]
          exact led new.1
  · exact rooted

omit [EquivBEq V] in
theorem Rooted.recruitAll (rooted : Rooted graph pool seed growth) {vertices : List V}
    (led : ∀ vertex ∈ vertices, pool.contains vertex = true →
      (graph.induced pool).Leads seed vertex) :
    Rooted graph pool seed (vertices.foldl (Growth.recruit pool) growth) := by
  induction vertices generalizing growth with
  | nil => exact rooted
  | cons vertex rest ih =>
      apply ih (rooted.recruit (led vertex List.mem_cons_self))
      intro other member
      exact led other (List.mem_cons_of_mem vertex member)

theorem Rooted.look (inPool : pool.contains seed = true) {vertex : V} {queue members : List V}
    (rooted : Rooted graph pool seed ⟨vertex :: queue, members⟩) :
    Rooted graph pool seed
      ((graph.targets vertex).foldl (Growth.recruit pool) ⟨queue, members⟩) := by
  have vertexLed := rooted.led vertex (rooted.queue List.mem_cons_self)
  have unqueued : Rooted graph pool seed ⟨queue, members⟩ := by
    constructor
    · exact rooted.first
    · exact fun _ isQueued => rooted.queue (List.mem_cons_of_mem vertex isQueued)
    · exact rooted.led
  apply unqueued.recruitAll
  intro target isTarget targetInPool
  apply vertexLed.tail
  rw [edge_induced_iff]
  exact ⟨contains_of_leads_induced inPool vertexLed, targetInPool,
    List.elem_eq_true_of_mem isTarget⟩

end Growth

theorem clusterOf_rooted (inPool : pool.contains seed = true) :
    Growth.Rooted graph pool seed ⟨[], graph.clusterOf pool seed⟩ := by
  apply Growth.run_induct graph pool (Growth.Rooted graph pool seed)
  · intro vertex queue members rooted
    exact rooted.look inPool
  · constructor
    · rfl
    · exact List.Subset.refl _
    · intro member isSeed
      rw [List.mem_singleton.1 isSeed]
      exact .refl _ seed

/-! ## The clusters before a position -/

/-- The members of the first clusters. -/
def membersBefore (clusters : List (List V)) (position : Nat) : List V :=
  (clusters.take position).flatten

omit [BEq V] [EquivBEq V] in
theorem membersBefore_succ {clusters : List (List V)} {position : Nat} {cluster : List V}
    (isAt : clusters[position]? = some cluster) :
    membersBefore clusters (position + 1) = membersBefore clusters position ++ cluster := by
  simp [membersBefore, List.take_add_one, isAt]

omit [BEq V] [EquivBEq V] in
theorem membersBefore_subset (clusters : List (List V)) {earlier later : Nat}
    (ordered : earlier ≤ later) :
    membersBefore clusters earlier ⊆ membersBefore clusters later := by
  intro vertex member
  rcases List.mem_flatten.1 member with ⟨cluster, isEarlier, inCluster⟩
  have isLater := List.take_subset_take_left clusters ordered isEarlier
  exact List.mem_flatten.2 ⟨cluster, isLater, inCluster⟩

/-- The first clusters hold all of the pool that their members point to. -/
theorem membersBefore_closed (edge : graph.Edge source target)
    (inPool : pool.contains target = true) :
    ∀ position, (membersBefore (graph.splitPool pool) position).contains source = true →
      (membersBefore (graph.splitPool pool) position).contains target = true := by
  induction pool using splitPool.induct graph with
  | case1 => simp at inPool
  | case2 first rest members ih =>
      intro position isMember
      cases position with
      | zero => simp [membersBefore] at isMember
      | succ position =>
          rw [splitPool, membersBefore, List.take_succ_cons, List.flatten_cons,
            List.contains_append, Bool.or_eq_true] at isMember ⊢
          by_cases taken : members.contains target = true
          · exact .inl taken
          · -- The target is left for later clusters, so its source was left as well.
            rw [Bool.not_eq_true] at taken
            cases isMember with
            | inl sourceTaken =>
                have targetTaken : members.contains target = true :=
                  clusterOf_closed sourceTaken edge inPool
                rw [taken] at targetTaken
                cases targetTaken
            | inr later =>
                have left : (outside members rest).contains target = true := by
                  rw [List.contains_cons, ne_seed_of_missed taken, Bool.false_or] at inPool
                  rw [contains_outside, inPool, taken]
                  rfl
                exact .inr (ih left position later)

/-- A cluster grows from the first vertex that earlier clusters have left, inside what they have
left. -/
theorem exists_seed_of_getElem? (graph : Digraph V) (pool : List V) :
    ∀ position cluster, (graph.splitPool pool)[position]? = some cluster →
      ∃ seed rest, outside (membersBefore (graph.splitPool pool) position) pool = seed :: rest ∧
        cluster = graph.clusterOf (seed :: rest) seed := by
  induction pool using splitPool.induct graph with
  | case1 => simp [splitPool]
  | case2 first rest members ih =>
      intro position cluster isAt
      rw [splitPool] at isAt ⊢
      cases position with
      | zero =>
          obtain rfl : members = cluster := by simpa using isAt
          exact ⟨first, rest, by simp [membersBefore, outside], rfl⟩
      | succ position =>
          rcases ih position cluster (by simpa using isAt) with ⟨seed, others, left, isCluster⟩
          refine ⟨seed, others, ?_, isCluster⟩
          have firstTaken : members.contains first = true :=
            List.elem_eq_true_of_mem (clusterOf_sound (by simp)).seed
          have together : outside (members ++ membersBefore (graph.splitPool (outside members rest))
              position) (first :: rest) =
            outside (membersBefore (graph.splitPool (outside members rest)) position)
              (outside members rest) := by
            simp [outside, List.filter_filter, firstTaken, Bool.and_comm]
          exact together.trans left

/-! ## The cluster at a position -/

section Position

variable {position : Nat} {cluster : List V}
  (isAt : (graph.splitPool pool)[position]? = some cluster)

include isAt

/-- A cluster begins with the first vertex of the pool that is in no earlier cluster. -/
theorem exists_head?_eq_find? :
    ∃ seed, cluster.head? = some seed ∧ pool.find? (fun vertex =>
      !(membersBefore (graph.splitPool pool) position).contains vertex) = some seed := by
  rcases exists_seed_of_getElem? graph pool position cluster isAt with ⟨seed, rest, left, isCluster⟩
  have rooted : Growth.Rooted graph (seed :: rest) seed ⟨[], graph.clusterOf (seed :: rest) seed⟩ :=
    clusterOf_rooted (by simp)
  refine ⟨seed, ?_, ?_⟩
  · rw [isCluster]
    exact rooted.first
  · rw [← List.head?_filter]
    exact congrArg List.head? left

/-- No member is in an earlier cluster, and the first member leads to all of them inside the
pool. -/
theorem leads_of_contains_cluster (isSeed : cluster.head? = some seed) {vertex : V}
    (isMember : cluster.contains vertex = true) :
    (membersBefore (graph.splitPool pool) position).contains vertex = false ∧
      (graph.induced pool).Leads seed vertex := by
  rcases exists_seed_of_getElem? graph pool position cluster isAt with ⟨first, rest, left, rfl⟩
  have inLeft : (first :: rest).contains first = true := by simp
  have rooted : Growth.Rooted graph (first :: rest) first ⟨[], _⟩ := clusterOf_rooted inLeft
  obtain rfl : first = seed := Option.some.inj (rooted.first.symm.trans isSeed)
  rcases List.contains_iff_exists_mem_beq.1 isMember with ⟨member, inCluster, equal⟩
  have leads := (rooted.led member inCluster).congr_right (BEq.symm equal)
  have leftInside : ∀ other, (first :: rest).contains other = true →
      pool.contains other = true ∧
        (membersBefore (graph.splitPool pool) position).contains other = false := by
    intro other isLeft
    rw [← left, contains_outside, Bool.and_eq_true, Bool.not_eq_true'] at isLeft
    exact isLeft
  constructor
  · exact (leftInside vertex (contains_of_leads_induced inLeft leads)).2
  · exact leads.induced_mono fun other isLeft => (leftInside other isLeft).1

/-- A cluster is what its first member leads to inside the pool, less the earlier clusters. -/
theorem contains_cluster_iff (isSeed : cluster.head? = some seed) {vertex : V} :
    cluster.contains vertex = true ↔
      (membersBefore (graph.splitPool pool) position).contains vertex = false ∧
        (graph.induced pool).Leads seed vertex := by
  constructor
  · exact leads_of_contains_cluster isAt isSeed
  · rintro ⟨notEarlier, leads⟩
    -- All that the seed leads to is in this cluster or an earlier one.
    have soFar : (membersBefore (graph.splitPool pool) (position + 1)).contains vertex = true := by
      apply leads.induct
        fun other => (membersBefore (graph.splitPool pool) (position + 1)).contains other = true
      · intro left right equal isLeft
        rw [← List.contains_congr equal]
        exact isLeft
      · intro left right edge isLeft
        have inside := edge_induced_iff.1 edge
        exact membersBefore_closed inside.2.2 inside.2.1 (position + 1) isLeft
      · rw [membersBefore_succ isAt, List.contains_append, Bool.or_eq_true]
        exact .inr (List.elem_eq_true_of_mem (List.mem_of_mem_head? isSeed))
    rw [membersBefore_succ isAt, List.contains_append, notEarlier, Bool.false_or] at soFar
    exact soFar

/-- An edge to another cluster leads to an earlier one. -/
theorem lt_of_edge {otherPosition : Nat} {other : List V}
    (otherAt : (graph.splitPool pool)[otherPosition]? = some other)
    (different : otherPosition ≠ position) (isSource : source ∈ cluster) (isTarget : target ∈ other)
    (edge : graph.Edge source target) : otherPosition < position := by
  by_contra notEarlier
  have later : position + 1 ≤ otherPosition := by omega
  have inPool : pool.contains target = true := by
    rw [← contains_flatten_splitPool graph]
    apply List.elem_eq_true_of_mem
    exact List.mem_flatten.2 ⟨other, List.mem_of_getElem? otherAt, isTarget⟩
  have sourceSoFar :
      (membersBefore (graph.splitPool pool) (position + 1)).contains source = true := by
    rw [membersBefore_succ isAt, List.contains_append, Bool.or_eq_true]
    exact .inr (List.elem_eq_true_of_mem isSource)
  have targetEarlier :
      (membersBefore (graph.splitPool pool) otherPosition).contains target = true :=
    Growth.contains_of_subset (membersBefore_subset _ later)
      (membersBefore_closed edge inPool (position + 1) sourceSoFar)
  rcases exists_head?_eq_find? otherAt with ⟨seed, isSeed, -⟩
  rw [(leads_of_contains_cluster otherAt isSeed (List.elem_eq_true_of_mem isTarget)).1]
    at targetEarlier
  cases targetEarlier

end Position

end ImportAtlas.Digraph
