import ImportAtlas.Proofs.Digraph.Path
import Mathlib.Data.List.Chain
import Mathlib.Order.WellFounded

/-!
# Closed walks

A list of vertices stands for the walk that goes through it and from its last vertex back to its
first. It is a cycle of a graph when every step of it is an edge. Deleting edges from a graph
keeps its vertices, so a set of edges that meets every cycle leaves a graph without cycles.
-/

namespace ImportAtlas.Digraph

variable {V : Type}

/-- Going round a list, one vertex comes right after another. -/
def Follows (walk : List V) (source target : V) : Prop :=
  ∃ position, walk[position]? = some source ∧
    walk[(position + 1) % walk.length]? = some target

/-- The step from the last vertex of a list to its first. -/
def closingEdge? (walk : List V) : Option (V × V) :=
  match walk.getLast?, walk.head? with
  | some last, some first => some (last, first)
  | _, _ => none

theorem closingEdge?_eq_some {walk : List V} {source target : V} :
    closingEdge? walk = some (source, target) ↔
      walk.getLast? = some source ∧ walk.head? = some target := by
  unfold closingEdge?
  cases walk.getLast? <;> cases walk.head? <;> simp

namespace Follows

variable {walk : List V} {source target : V}

theorem mem_left (follows : Follows walk source target) : source ∈ walk := by
  obtain ⟨position, isSource, -⟩ := follows
  exact List.mem_of_getElem? isSource

theorem mem_right (follows : Follows walk source target) : target ∈ walk := by
  obtain ⟨position, -, isTarget⟩ := follows
  exact List.mem_of_getElem? isTarget

/-- Every vertex of a list is followed by one. -/
theorem exists_of_mem (member : source ∈ walk) : ∃ target, Follows walk source target := by
  obtain ⟨position, isSource⟩ := List.mem_iff_getElem?.1 member
  have inside : (position + 1) % walk.length < walk.length :=
    Nat.mod_lt _ (List.length_pos_of_mem member)
  exact ⟨walk[(position + 1) % walk.length], position, isSource, List.getElem?_eq_getElem inside⟩

/-- What each step keeps spreads from one vertex of a list to all of them, going far enough
round. -/
theorem spread (property : V → Prop)
    (keeps : ∀ {source target}, Follows walk source target → property source → property target)
    (sourceMember : source ∈ walk) (holds : property source) (targetMember : target ∈ walk) :
    property target := by
  obtain ⟨start, isSource⟩ := List.mem_iff_getElem?.1 sourceMember
  obtain ⟨goal, isTarget⟩ := List.mem_iff_getElem?.1 targetMember
  have startInside : start < walk.length := (List.getElem?_eq_some_iff.1 isSource).1
  have goalInside : goal < walk.length := (List.getElem?_eq_some_iff.1 isTarget).1
  have round : ∀ steps vertex, walk[(start + steps) % walk.length]? = some vertex →
      property vertex := by
    intro steps
    induction steps with
    | zero =>
        intro vertex isVertex
        rw [Nat.add_zero, Nat.mod_eq_of_lt startInside, isSource] at isVertex
        cases isVertex
        exact holds
    | succ steps ih =>
        intro vertex isVertex
        have inside : (start + steps) % walk.length < walk.length :=
          Nat.mod_lt _ (by omega)
        refine keeps ?_ (ih _ (List.getElem?_eq_getElem inside))
        refine ⟨(start + steps) % walk.length, List.getElem?_eq_getElem inside, ?_⟩
        rw [Nat.mod_add_mod]
        exact isVertex
  apply round (goal + walk.length - start)
  have sum : start + (goal + walk.length - start) = goal + walk.length := by omega
  rw [sum, Nat.add_mod_right, Nat.mod_eq_of_lt goalInside]
  exact isTarget

/-- A step inside a list goes to the next position or closes the walk. -/
theorem next_or_closing (follows : Follows walk source target) :
    (∃ position, walk[position]? = some source ∧ walk[position + 1]? = some target) ∨
      closingEdge? walk = some (source, target) := by
  obtain ⟨position, isSource, isTarget⟩ := follows
  have inside : position < walk.length := (List.getElem?_eq_some_iff.1 isSource).1
  by_cases last : position + 1 = walk.length
  · right
    rw [last, Nat.mod_self] at isTarget
    rw [closingEdge?_eq_some, List.getLast?_eq_getElem?, List.head?_eq_getElem?, ← last]
    exact ⟨isSource, isTarget⟩
  · left
    rw [Nat.mod_eq_of_lt (by omega)] at isTarget
    exact ⟨position, isSource, isTarget⟩

theorem of_closing (closing : closingEdge? walk = some (source, target)) :
    Follows walk source target := by
  rw [closingEdge?_eq_some, List.getLast?_eq_getElem?, List.head?_eq_getElem?] at closing
  rcases closing with ⟨isLast, isFirst⟩
  refine ⟨walk.length - 1, isLast, ?_⟩
  have inside : 0 < walk.length := (List.getElem?_eq_some_iff.1 isFirst).1
  rw [Nat.sub_add_cancel inside, Nat.mod_self]
  exact isFirst

end Follows

/-- A closed walk cannot stay inside a relation along which every walk ends: some step of it
lies outside. -/
theorem exists_follows_not {related : V → V → Prop}
    (ends : WellFounded fun later earlier => related earlier later) {walk : List V}
    (nonempty : walk ≠ []) :
    ∃ source target, Follows walk source target ∧ ¬ related source target := by
  obtain ⟨first, isFirst⟩ := List.exists_mem_of_ne_nil walk nonempty
  obtain ⟨source, member, minimal⟩ := ends.has_min { vertex | vertex ∈ walk } ⟨first, isFirst⟩
  obtain ⟨target, follows⟩ := Follows.exists_of_mem member
  exact ⟨source, target, follows, minimal target follows.mem_right⟩

variable [BEq V]

/-- A closed walk along edges. It may go through a vertex more than once. -/
structure IsCycle (graph : Digraph V) (walk : List V) : Prop where
  nonempty : walk ≠ []
  edge : ∀ {source target}, Follows walk source target → graph.Edge source target

/-- No walk along edges closes. -/
def Acyclic (graph : Digraph V) : Prop := ∀ walk, ¬ graph.IsCycle walk

namespace IsCycle

variable {graph : Digraph V} {walk : List V}

/-- A chain of edges with an edge from its end to its start is a cycle. -/
theorem of_isChain (nonempty : walk ≠ []) (linked : walk.IsChain graph.Edge)
    (closed : ∀ {source target}, closingEdge? walk = some (source, target) →
      graph.Edge source target) : graph.IsCycle walk where
  nonempty := nonempty
  edge := by
    intro source target follows
    rcases follows.next_or_closing with ⟨position, isSource, isTarget⟩ | closing
    · obtain ⟨inside, rfl⟩ := List.getElem?_eq_some_iff.1 isSource
      obtain ⟨nextInside, rfl⟩ := List.getElem?_eq_some_iff.1 isTarget
      exact List.isChain_iff_getElem.1 linked position nextInside
    · exact closed closing

theorem isChain (cycle : graph.IsCycle walk) : walk.IsChain graph.Edge := by
  rw [List.isChain_iff_getElem]
  intro position inside
  apply cycle.edge
  refine ⟨position, List.getElem?_eq_getElem (by omega), ?_⟩
  rw [Nat.mod_eq_of_lt inside]
  exact List.getElem?_eq_getElem inside

/-- Every member of a cycle is reached from every other. -/
theorem leads [EquivBEq V] (cycle : graph.IsCycle walk) {source target : V}
    (sourceMember : source ∈ walk) (targetMember : target ∈ walk) :
    graph.Leads source target := by
  apply Follows.spread (graph.Leads source) _ sourceMember (.refl graph source) targetMember
  intro left right follows reaches
  exact reaches.tail (cycle.edge follows)

theorem reaches (cycle : graph.IsCycle walk) {source target : V} (sourceMember : source ∈ walk)
    (targetMember : target ∈ walk) : Relation.ReflTransGen graph.Edge source target := by
  apply Follows.spread (Relation.ReflTransGen graph.Edge source) _ sourceMember .refl targetMember
  intro left right follows reaches
  exact reaches.tail (cycle.edge follows)

/-- What takes edges to edges takes cycles to cycles. -/
theorem map {W : Type} [BEq W] {other : Digraph W} {image : V → W} (cycle : graph.IsCycle walk)
    (keeps : ∀ {source target}, graph.Edge source target →
      other.Edge (image source) (image target)) : other.IsCycle (walk.map image) where
  nonempty := by simpa using cycle.nonempty
  edge := by
    rintro _ _ ⟨position, sourceImage, targetImage⟩
    rw [List.length_map] at targetImage
    rw [List.getElem?_map, Option.map_eq_some_iff] at sourceImage targetImage
    obtain ⟨source, isSource, rfl⟩ := sourceImage
    obtain ⟨target, isTarget, rfl⟩ := targetImage
    exact keeps (cycle.edge ⟨position, isSource, isTarget⟩)

end IsCycle

/-- A path that comes back goes round a cycle. -/
theorem exists_isCycle_of_transGen {graph : Digraph V} {vertex : V}
    (round : Relation.TransGen graph.Edge vertex vertex) :
    ∃ walk, graph.IsCycle walk ∧ vertex ∈ walk := by
  rcases Relation.TransGen.head'_iff.1 round with ⟨next, edge, back⟩
  rcases List.exists_isChain_cons_of_relationReflTransGen back with ⟨rest, linked, isLast⟩
  refine ⟨next :: rest, .of_isChain (List.cons_ne_nil _ _) linked ?_, ?_⟩
  · intro source target closing
    rw [closingEdge?_eq_some, List.getLast?_eq_some_getLast (List.cons_ne_nil _ _), isLast]
      at closing
    rcases closing with ⟨isSource, isTarget⟩
    cases isSource
    cases isTarget
    exact edge
  · rw [← isLast]
    exact List.getLast_mem _

/-- From each vertex one edge at most leads back to it, so that no two cycles share a vertex. -/
def CyclesApart (graph : Digraph V) : Prop :=
  ∀ {source left right}, graph.Edge source left → graph.Edge source right →
    Relation.ReflTransGen graph.Edge left source → Relation.ReflTransGen graph.Edge right source →
    left = right

/-- Where no two cycles share a vertex, one that meets another runs along it. -/
theorem CyclesApart.subset {graph : Digraph V} (apart : graph.CyclesApart) {walk other : List V}
    (isCycle : graph.IsCycle walk) (otherIsCycle : graph.IsCycle other) {common : V}
    (inWalk : common ∈ walk) (inOther : common ∈ other) : walk ⊆ other := by
  intro vertex member
  apply Follows.spread (· ∈ other) _ inWalk inOther member
  intro source target follows sourceInOther
  rcases Follows.exists_of_mem sourceInOther with ⟨next, nextFollows⟩
  have same : target = next :=
    apart (isCycle.edge follows) (otherIsCycle.edge nextFollows)
      (isCycle.reaches follows.mem_right follows.mem_left)
      (otherIsCycle.reaches nextFollows.mem_right nextFollows.mem_left)
  rw [same]
  exact nextFollows.mem_right

/-! ## Deleting edges -/

/-- The graph without the given edges, all vertices kept. -/
def without (graph : Digraph V) (edges : List (V × V)) : Digraph V where
  entries := graph.entries.map fun entry =>
    (entry.1, entry.2.filter fun target => !edges.contains (entry.1, target))
  distinct := by
    rw [List.pairwise_map]
    exact graph.distinct

theorem targets_without [LawfulBEq V] (graph : Digraph V) (edges : List (V × V)) (source : V) :
    (graph.without edges).targets source =
      (graph.targets source).filter fun target => !edges.contains (source, target) := by
  unfold targets Table.get? without
  rw [List.find?_map, Option.map_map]
  -- Entries keep their keys, so the entry found is the one that was found before.
  change ((graph.entries.find? fun entry => entry.1 == source).map _).getD [] = _
  cases found : graph.entries.find? fun entry => entry.1 == source with
  | none => rfl
  | some entry =>
      have equal := List.find?_some found
      obtain rfl : entry.1 = source := eq_of_beq equal
      rfl

theorem edge_without_iff [LawfulBEq V] {graph : Digraph V} {edges : List (V × V)}
    {source target : V} :
    (graph.without edges).Edge source target ↔
      graph.Edge source target ∧ (source, target) ∉ edges := by
  rw [edge_iff_mem, edge_iff_mem, targets_without, List.mem_filter]
  simp

end ImportAtlas.Digraph
