import ImportAtlas.Proofs.CallGraph.Functions
import ImportAtlas.Proofs.Digraph.Partition
import ImportAtlas.Proofs.ZombieClusters

/-!
# Where a cluster is entered

A cluster grows from its seed: every other member was found among the targets of a member that was
there before. So each of them is pointed to by another member, and the seed alone can be one that no
other member points to. The description of a cluster does not know the seed. It looks at the edges
among the members, and what it lists is the seed or nothing.
-/

namespace ImportAtlas

namespace Digraph

variable {V : Type} [BEq V] [EquivBEq V] {graph : Digraph V} {pool : List V} {seed : V}

namespace Growth

variable {growth : Growth V}

/-- Every member but the seed is a target of another member. -/
structure Found (graph : Digraph V) (seed : V) (growth : Growth V) : Prop where
  queue : growth.queue ⊆ growth.members
  pointed : ∀ member ∈ growth.members, (member == seed) = true ∨
    ∃ other ∈ growth.members, graph.Edge other member ∧ (other == member) = false

/-- A new member is a target of a member that it differs from. -/
theorem Found.recruit (found : Found graph seed growth) {vertex target : V}
    (isMember : vertex ∈ growth.members) (edge : graph.Edge vertex target) :
    Found graph seed (growth.recruit pool target) := by
  unfold Growth.recruit
  split
  · rename_i new
    rw [Bool.and_eq_true, Bool.not_eq_true'] at new
    have different : (vertex == target) = false := by
      rw [Bool.eq_false_iff]
      intro equal
      have known : growth.members.contains target = true :=
        List.contains_iff_exists_mem_beq.2 ⟨vertex, isMember, BEq.symm equal⟩
      rw [new.2] at known
      cases known
    constructor
    · intro queued isQueued
      simp only [List.mem_append] at isQueued ⊢
      exact isQueued.imp_left (found.queue ·)
    · intro member inMembers
      cases List.mem_append.1 inMembers with
      | inl old =>
          apply (found.pointed member old).imp_right
          intro isPointed
          rcases isPointed with ⟨other, isOther, pointing⟩
          exact ⟨other, List.mem_append_left _ isOther, pointing⟩
      | inr isNew =>
          rw [List.mem_singleton.1 isNew]
          exact .inr ⟨vertex, List.mem_append_left _ isMember, edge, different⟩
  · exact found

theorem Found.recruitAll (found : Found graph seed growth) {vertex : V}
    (isMember : vertex ∈ growth.members) {targets : List V}
    (edges : ∀ target ∈ targets, graph.Edge vertex target) :
    Found graph seed (targets.foldl (Growth.recruit pool) growth) := by
  induction targets generalizing growth with
  | nil => exact found
  | cons target rest ih =>
      apply ih (found.recruit isMember (edges target List.mem_cons_self))
      · exact (Grown.recruit pool growth target).members isMember
      · intro other inRest
        exact edges other (List.mem_cons_of_mem target inRest)

theorem Found.look {vertex : V} {queue members : List V}
    (found : Found graph seed ⟨vertex :: queue, members⟩) :
    Found graph seed ((graph.targets vertex).foldl (Growth.recruit pool) ⟨queue, members⟩) := by
  have unqueued : Found graph seed ⟨queue, members⟩ := by
    constructor
    · exact fun _ isQueued => found.queue (List.mem_cons_of_mem vertex isQueued)
    · exact found.pointed
  apply unqueued.recruitAll (found.queue List.mem_cons_self)
  intro target isTarget
  exact List.elem_eq_true_of_mem isTarget

end Growth

theorem clusterOf_found (graph : Digraph V) (pool : List V) (seed : V) :
    Growth.Found graph seed ⟨[], graph.clusterOf pool seed⟩ := by
  apply Growth.run_induct graph pool (Growth.Found graph seed)
  · intro vertex queue members found
    exact found.look
  · constructor
    · exact List.Subset.refl _
    · intro member isSeed
      rw [List.mem_singleton.1 isSeed]
      exact .inl (BEq.refl seed)

/-- A cluster is its seed and members that are each pointed to by another member. -/
theorem exists_seed_pointing {vertices cluster : List V}
    (isCluster : cluster ∈ collectClusters vertices graph) :
    ∃ seed rest, cluster = seed :: rest ∧
      ∀ member ∈ rest, ∃ other ∈ cluster, graph.Edge other member ∧ (other == member) = false := by
  rcases List.mem_iff_getElem?.1 isCluster with ⟨position, isAt⟩
  rcases exists_seed_of_getElem? graph vertices.eraseDups position cluster isAt with
    ⟨seed, others, -, grown⟩
  have inPool : (seed :: others).contains seed = true := by simp
  have rooted : Growth.Rooted graph (seed :: others) seed ⟨[], cluster⟩ :=
    grown ▸ clusterOf_rooted inPool
  have sound : Growth.Sound (seed :: others) seed ⟨[], cluster⟩ := grown ▸ clusterOf_sound inPool
  have found : Growth.Found graph seed ⟨[], cluster⟩ := grown ▸ clusterOf_found graph _ seed
  cases cluster with
  | nil => cases sound.seed
  | cons first rest =>
      cases rooted.first
      refine ⟨seed, rest, rfl, ?_⟩
      intro member inRest
      have different : (seed == member) = false :=
        (List.pairwise_cons.1 sound.distinct).1 member inRest
      apply (found.pointed member (List.mem_cons_of_mem seed inRest)).resolve_left
      rw [BEq.comm, different]
      exact Bool.false_ne_true

end Digraph

namespace ZombieReport

open ImportAtlas.Digraph

variable {graph : Digraph Vertex} {members : List Vertex}

/-- A component is pointed to if it is a member and another member points to it. -/
theorem contains_pointedAt_iff {id : Text} :
    (ZombieCluster.pointedAt members graph).contains (.component id) = true ↔
      .component id ∈ members ∧
        ∃ other ∈ members, other ≠ .component id ∧ graph.Edge other (.component id) := by
  have different : ∀ other : Vertex, (Vertex.component id == other) = false ↔
      other ≠ .component id := by
    intro other
    cases other with
    | component otherId =>
        rw [Vertex.beq_component, beq_eq_false_iff_ne, ne_comm, ne_eq, ne_eq,
          Vertex.component.injEq]
    | function owner name => simp
  rw [← component_mem_iff, ZombieCluster.pointedAt, List.mem_flatMap]
  simp only [List.mem_filter, Bool.and_eq_true, Bool.not_eq_true', different, ← component_mem_iff,
    Edge]
  constructor
  · intro found
    rcases found with ⟨other, isOther, isTarget, isMember, isDifferent⟩
    exact ⟨isMember, other, isOther, isDifferent, isTarget⟩
  · intro isPointed
    rcases isPointed with ⟨isMember, other, isOther, isDifferent, isTarget⟩
    exact ⟨other, isOther, isTarget, isMember, isDifferent⟩

/-- A component is the first member, and no other member points to it. -/
structure Heads (graph : Digraph Vertex) (members : List Vertex) (id : Text) : Prop where
  first : members.head? = some (.component id)
  unpointed : ∀ other ∈ members, other ≠ .component id → ¬ graph.Edge other (.component id)

/-- Where every member but the first is pointed to by another, only the first can be an entry
point. -/
theorem entryPoints_describe {seed : Vertex} {rest : List Vertex}
    (pointed : ∀ member ∈ rest, ∃ other ∈ seed :: rest, graph.Edge other member ∧
      (other == member) = false) (clusterId : Text) (catalog : Catalog) :
    (ZombieCluster.describe clusterId (seed :: rest) graph catalog).entryPoints =
      ((seed.component?.toList.filter fun id =>
        !(ZombieCluster.pointedAt (seed :: rest) graph).contains (.component id)).map
          catalog.displayName) := by
  have noOther : ((rest.filterMap Vertex.component?).filter fun id =>
      !(ZombieCluster.pointedAt (seed :: rest) graph).contains (.component id)) = [] := by
    rw [List.filter_eq_nil_iff]
    intro id isId
    have inRest := mem_components_iff.1 isId
    rcases pointed _ inRest with ⟨other, isOther, edge, different⟩
    have isPointed : (ZombieCluster.pointedAt (seed :: rest) graph).contains (.component id) =
        true := by
      rw [contains_pointedAt_iff]
      refine ⟨List.mem_cons_of_mem seed inRest, other, isOther, ?_, edge⟩
      intro same
      simp [same] at different
    simp only [isPointed, Bool.not_true, Bool.false_eq_true, not_false_eq_true]
  have split : (seed :: rest).filterMap Vertex.component? =
      seed.component?.toList ++ rest.filterMap Vertex.component? := by
    cases seed <;> rfl
  rw [ZombieCluster.describe, split, List.filter_append, noOther, List.append_nil]

/-- A first member that heads its cluster is the one entry point, and without one there is none. -/
theorem entryPoints_of_heads {seed : Vertex} {rest : List Vertex}
    (pointed : ∀ member ∈ rest, ∃ other ∈ seed :: rest, graph.Edge other member ∧
      (other == member) = false) (clusterId : Text) (catalog : Catalog) :
    (∀ id, Heads graph (seed :: rest) id →
      (ZombieCluster.describe clusterId (seed :: rest) graph catalog).entryPoints =
        [catalog.displayName id]) ∧
    ((∀ id, ¬ Heads graph (seed :: rest) id) →
      (ZombieCluster.describe clusterId (seed :: rest) graph catalog).entryPoints = []) := by
  rw [entryPoints_describe pointed]
  constructor
  · intro id heads
    have isSeed : seed = .component id := Option.some.inj heads.first
    have unpointed : (ZombieCluster.pointedAt (seed :: rest) graph).contains (.component id) =
        false := by
      rw [Bool.eq_false_iff, ne_eq, contains_pointedAt_iff]
      intro isPointed
      rcases isPointed with ⟨-, other, isOther, different, edge⟩
      exact heads.unpointed other isOther different edge
    rw [isSeed] at unpointed ⊢
    simp [Vertex.component?, unpointed]
  · intro headless
    cases seed with
    | function owner name => rfl
    | component id =>
        have isPointed : (ZombieCluster.pointedAt (.component id :: rest) graph).contains
            (.component id) = true := by
          by_contra unpointed
          rw [contains_pointedAt_iff] at unpointed
          apply headless id
          refine ⟨rfl, ?_⟩
          intro other isOther different edge
          exact unpointed ⟨List.mem_cons_self, other, isOther, different, edge⟩
        simp [Vertex.component?, isPointed]

/-- A zombie cluster has one entry point at most. The description of a cluster lists its seed if
that is a component that no other member points to, and nothing otherwise. Every call graph has such
a report, and there is one for all records whose functions have names. -/
theorem entry_point_is_seed (components : List Component) (catalog : Catalog)
    (settings : Settings) :
    ((∀ component ∈ components, CallGraph.Named component) →
      ∃ graph, CallGraph.ofComponents components catalog = .ok graph) ∧
    ∀ graph, CallGraph.ofComponents components catalog = .ok graph →
      ∃ report, ofComponents components catalog settings = .ok report ∧
        report.clusters.length = (zombieClusters graph).length ∧
        ∀ (index : Nat) members, (zombieClusters graph)[index]? = some members →
          ∃ described, report.clusters[index]? = some described ∧
            (∀ id, Heads graph members id → described.entryPoints = [catalog.displayName id]) ∧
            ((∀ id, ¬ Heads graph members id) → described.entryPoints = []) := by
  constructor
  · intro named
    exact CallGraph.exists_ofComponents named catalog
  · intro graph built
    refine ⟨_, ofComponents_eq_ok built settings, ?_, ?_⟩
    · have sizes :
          (describeFrom catalog graph 0 (zombieClusters graph)).map ZombieCluster.size = _ :=
        map_describeFrom (fun _ _ => rfl) 0 (zombieClusters graph)
      simpa [clusters_ofGraph] using congrArg List.length sizes
    · intro index members isAt
      rcases exists_seed_pointing (List.mem_of_getElem? isAt) with ⟨seed, rest, rfl, pointed⟩
      refine ⟨.describe (clusterId index) (seed :: rest) graph catalog, ?_, ?_⟩
      · simp [clusters_ofGraph, getElem?_describeFrom, isAt]
      · exact entryPoints_of_heads pointed (clusterId index) catalog

/-- A component that is only imported from a cycle that comes after it, another that only it
imports, and functions that call each other. -/
def outposts : List Component :=
  [{ name := .text "Route", path := .text "r", imports := [.text "./Link"],
     functions := some [.text "open", .text "close"],
     calls := some (Table.ofList [("open", [.text "close"]), ("close", [.text "open"])]) },
   { name := .text "Link", path := .text "l" },
   { name := .text "Query", path := .text "q", imports := [.text "./User", .text "./Route"] },
   { name := .text "User", path := .text "u", imports := [.text "./Query"] }]

def outpostGraph : Digraph Vertex := Table.ofList
  [(.component "r#Route", [.component "l#Link"]),
   (.function "r#Route" (.text "open"), [.function "r#Route" (.text "close")]),
   (.function "r#Route" (.text "close"), [.function "r#Route" (.text "open")]),
   (.component "l#Link", []),
   (.component "q#Query", [.component "u#User", .component "r#Route"]),
   (.component "u#User", [.component "q#Query"])]

/-- The first cluster has an entry point because the cycle that leads to it is a later cluster. -/
theorem outposts_entered_at_seed :
    zombieClusters outpostGraph =
      [[.component "r#Route", .component "l#Link"],
       [.function "r#Route" (.text "open"), .function "r#Route" (.text "close")],
       [.component "q#Query", .component "u#User"]] ∧
    Heads outpostGraph [.component "r#Route", .component "l#Link"] "r#Route" ∧
    (∀ id, ¬ Heads outpostGraph [.component "q#Query", .component "u#User"] id) ∧
    ∃ catalog report, Catalog.ofComponents outposts = .ok catalog ∧
      CallGraph.ofComponents outposts catalog = .ok outpostGraph ∧
      ofComponents outposts catalog {} = .ok report ∧
      (∃ first, report.clusters[0]? = some first ∧ first.entryPoints = [.text "Route"]) ∧
      ∃ last, report.clusters[2]? = some last ∧ last.entryPoints = [] := by
  have computed : ∃ catalog ∈ (Catalog.ofComponents outposts).toOption,
      CallGraph.ofComponents outposts catalog = .ok outpostGraph ∧
      catalog.displayName "r#Route" = .text "Route" := by
    decide +kernel
  simp only [Option.mem_def, toOption_eq_some_iff] at computed
  rcases computed with ⟨catalog, listed, built, isName⟩
  have clusters : zombieClusters outpostGraph =
      [[.component "r#Route", .component "l#Link"],
       [.function "r#Route" (.text "open"), .function "r#Route" (.text "close")],
       [.component "q#Query", .component "u#User"]] := by
    decide +kernel
  have heads : Heads outpostGraph [.component "r#Route", .component "l#Link"] "r#Route" := by
    constructor
    · rfl
    · unfold Edge
      decide +kernel
  have headless : ∀ id, ¬ Heads outpostGraph [.component "q#Query", .component "u#User"] id := by
    intro id heads
    cases heads.first
    apply heads.unpointed (.component "u#User") (by simp) (by decide)
    unfold Edge
    decide +kernel
  rcases (entry_point_is_seed outposts catalog {}).2 outpostGraph built with
    ⟨report, made, -, entries⟩
  rcases entries 0 _ (by rw [clusters]; rfl) with ⟨first, firstDescribed, atSeed, -⟩
  rcases entries 2 _ (by rw [clusters]; rfl) with ⟨last, lastDescribed, -, nowhere⟩
  have named : first.entryPoints = [.text "Route"] := by rw [atSeed _ heads, isName]
  exact ⟨clusters, heads, headless, catalog, report, listed, built, made,
    ⟨first, firstDescribed, named⟩, last, lastDescribed, nowhere headless⟩

end ZombieReport

end ImportAtlas
