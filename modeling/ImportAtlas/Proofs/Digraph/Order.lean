import ImportAtlas.Proofs.Digraph.Cover

/-!
# The order of a search

A search numbers the vertices as it enters them. What it enters from a vertex, before it leaves
that vertex again, is what a path leads to through vertices with higher numbers. So the vertices
on reported cycles can be told without the search, from the graph and the numbers alone: those
from which such a path leads to a vertex that points back, to the vertex itself or to one from
which such a path came.

A vertex may lie on a cycle and still be on no reported one: if every way back leads through a
vertex that had been left when it was entered.
-/

namespace ImportAtlas.Digraph

variable {V : Type}

namespace Search

/-- A vertex is on a cycle that has been reported. -/
def Reports (search : Search V) (vertex : V) : Prop := ∃ cycle ∈ search.cycles, vertex ∈ cycle

/-- A target of an active vertex is still to be looked at. -/
def Awaits (search : Search V) (source target : V) : Prop :=
  ∃ frame ∈ search.stack, frame.vertex = source ∧ target ∈ frame.remaining

theorem Awaits.mem_active {search : Search V} {source target : V}
    (awaits : search.Awaits source target) : source ∈ search.active := by
  rcases awaits with ⟨frame, isFrame, rfl, -⟩
  exact List.mem_map_of_mem isFrame

/-- Looking at a target leaves everything else to be looked at. -/
theorem Awaits.advance {search after : Search V} {vertex target source other : V}
    {remaining : List V} {frames : List (Frame V)} (awaits : search.Awaits source other)
    (top : search.stack = ⟨vertex, target :: remaining⟩ :: frames)
    (stack : after.stack = ⟨vertex, remaining⟩ :: frames) :
    after.Awaits source other ∨ other = target := by
  rcases awaits with ⟨frame, isFrame, isSource, isRemaining⟩
  rw [top] at isFrame
  rcases List.mem_cons.1 isFrame with rfl | isFrame
  · rcases List.mem_cons.1 isRemaining with isTarget | isRemaining
    · exact .inr isTarget
    · exact .inl ⟨⟨vertex, remaining⟩, by simp [stack], isSource, isRemaining⟩
  · exact .inl ⟨frame, by simp [stack, isFrame], isSource, isRemaining⟩

variable [BEq V]

/-- How many vertices had been entered before a vertex. All of them, if it has not been entered. -/
def rank (search : Search V) (vertex : V) : Nat := search.visited.reverse.idxOf vertex

/-- A path leads from one vertex to another, and all vertices on it come after the first one. -/
def LeadsAfter (graph : Digraph V) (search : Search V) (source : V) : V → Prop :=
  Relation.ReflTransGen
    (fun left right => graph.Edge left right ∧ search.rank source < search.rank right) source

/-- A vertex leads, through later ones, to a vertex that points to the vertex itself or to one that
leads to it in the same way. -/
def Returns (graph : Digraph V) (search : Search V) (vertex : V) : Prop :=
  ∃ last first, search.LeadsAfter graph vertex last ∧ graph.Edge last first ∧
    search.LeadsAfter graph first vertex

variable {graph : Digraph V} {search : Search V}

/-! ## Numbers -/

namespace LeadsAfter

variable {source target : V}

theorem rank_le (leads : search.LeadsAfter graph source target) :
    search.rank source ≤ search.rank target := by
  cases leads with
  | refl => exact Nat.le_refl _
  | tail _ step => exact Nat.le_of_lt step.2

theorem leads (leads : search.LeadsAfter graph source target) :
    Relation.ReflTransGen graph.Edge source target :=
  Relation.ReflTransGen.mono (fun _ _ step => step.1) _ _ leads

end LeadsAfter

/-- A vertex that returns lies on a cycle. -/
theorem Returns.transGen {vertex : V} (returns : search.Returns graph vertex) :
    Relation.TransGen graph.Edge vertex vertex := by
  rcases returns with ⟨last, first, toLast, edge, fromFirst⟩
  exact (Relation.TransGen.tail' toLast.leads edge).trans_left fromFirst.leads

theorem LeadsAfter.of_isChain {source current : V} {walk : List V}
    (leads : search.LeadsAfter graph source current)
    (linked : (current :: walk).IsChain graph.Edge)
    (later : ∀ vertex ∈ walk, search.rank source < search.rank vertex) {target : V}
    (member : target ∈ current :: walk) : search.LeadsAfter graph source target := by
  induction walk generalizing current with
  | nil =>
      rw [List.mem_singleton.1 member]
      exact leads
  | cons next walk ih =>
      rcases List.isChain_cons_cons.1 linked with ⟨edge, linked⟩
      rcases List.mem_cons.1 member with rfl | member
      · exact leads
      · apply ih (leads.tail ⟨edge, later next List.mem_cons_self⟩) linked _ member
        exact fun vertex isLater => later vertex (List.mem_cons_of_mem _ isLater)

/-- On a cycle along which the numbers go up every vertex returns, as the last one points to the
first. -/
theorem returns_of_mem_cycle {cycle : List V} (isCycle : graph.IsCycle cycle)
    (climbing : cycle.Pairwise fun earlier later => search.rank earlier < search.rank later)
    {vertex : V} (member : vertex ∈ cycle) : search.Returns graph vertex := by
  have linked := isCycle.isChain
  cases cycle with
  | nil => cases member
  | cons first rest =>
      have closing : closingEdge? (first :: rest) =
          some ((first :: rest).getLast (List.cons_ne_nil _ _), first) := by
        simp [closingEdge?_eq_some, List.getLast?_eq_some_getLast]
      refine ⟨_, first, ?_, isCycle.edge (.of_closing closing), ?_⟩
      · rcases List.append_of_mem member with ⟨before, behind, split⟩
        simp only [split] at linked climbing ⊢
        rw [List.getLast_append_of_ne_nil _ (List.cons_ne_nil _ _)]
        have later := (List.pairwise_cons.1 (List.pairwise_append.1 climbing).2.1).1
        exact LeadsAfter.of_isChain .refl linked.right_of_append later (List.getLast_mem _)
      · exact LeadsAfter.of_isChain .refl linked (List.pairwise_cons.1 climbing).1 member

/-! ## What a search has done -/

/-- The numbers of active vertices go up along the path, and so do those of reported cycles. What
has been looked at has been entered. What came after a vertex that has been left, and is active,
also came after all its targets. And where an active vertex was looked at, all active vertices
from there to the one that points to it are on a reported cycle. -/
structure Timeline (graph : Digraph V) (search : Search V) : Prop where
  nested : search.active.Pairwise fun inner outer => search.rank outer < search.rank inner
  climbing : ∀ cycle ∈ search.cycles, cycle ⊆ search.visited ∧
    cycle.Pairwise fun earlier later => search.rank earlier < search.rank later
  examined : ∀ source ∈ search.visited, ∀ target ∈ graph.targets source,
    search.Awaits source target ∨ target ∈ search.visited
  enclosed : ∀ source, search.HasLeft source → ∀ target ∈ graph.targets source,
    ∀ vertex ∈ search.active, search.rank source < search.rank vertex →
      search.rank target < search.rank vertex
  spanned : ∀ source ∈ search.visited, ∀ target ∈ graph.targets source,
    ¬ search.Awaits source target → target ∈ search.active → ∀ vertex ∈ search.active,
      search.rank target ≤ search.rank vertex → search.rank vertex ≤ search.rank source →
      search.Reports vertex

/-- Nothing is left to be looked at from a vertex that has been left. -/
theorem HasLeft.not_awaits {source : V} (left : search.HasLeft source)
    (coherent : Coherent graph search) (target : V) : ¬ search.Awaits source target := by
  intro awaits
  apply left.2
  rw [coherent.onStack]
  exact awaits.mem_active

theorem Coherent.not_awaits_innermost (coherent : Coherent graph search) {vertex : V}
    {frames : List (Frame V)} (top : search.stack = ⟨vertex, []⟩ :: frames) (target : V) :
    ¬ search.Awaits vertex target := by
  have nodup := coherent.nodup
  simp only [active, top, List.map_cons, List.nodup_cons] at nodup
  rintro ⟨frame, isFrame, isVertex, isRemaining⟩
  rw [top] at isFrame
  rcases List.mem_cons.1 isFrame with rfl | isOuter
  · cases isRemaining
  · exact nodup.1 (isVertex ▸ List.mem_map_of_mem isOuter)

namespace Timeline

variable {vertex target : V} {remaining : List V} {frames : List (Frame V)}

theorem start : Timeline graph ({} : Search V) where
  nested := .nil
  climbing := by simp
  examined := by simp
  enclosed := by simp [HasLeft]
  spanned := by simp

theorem target_visited (timeline : Timeline graph search) (coherent : Coherent graph search)
    {source : V} (left : search.HasLeft source) (isTarget : target ∈ graph.targets source) :
    target ∈ search.visited :=
  (timeline.examined source left.1 target isTarget).resolve_left (left.not_awaits coherent target)

/-- No active vertex came after the innermost one. -/
theorem rank_le_innermost (timeline : Timeline graph search) {rest : List V}
    (innermost : search.active = vertex :: rest) {other : V} (isActive : other ∈ search.active) :
    search.rank other ≤ search.rank vertex := by
  have nested := timeline.nested
  rw [innermost] at nested isActive
  rcases List.mem_cons.1 isActive with rfl | isOuter
  · exact Nat.le_refl _
  · exact Nat.le_of_lt ((List.pairwise_cons.1 nested).1 other isOuter)

/-- Looking at a target that has been entered. If it is active, a cycle through all active vertices
from there on is reported. -/
theorem use {after : Search V} (timeline : Timeline graph search)
    (top : search.stack = ⟨vertex, target :: remaining⟩ :: frames)
    (stack : after.stack = ⟨vertex, remaining⟩ :: frames) (visited : after.visited = search.visited)
    (onStack : after.onStack = search.onStack) (known : target ∈ search.visited)
    (reports : search.cycles ⊆ after.cycles)
    (climbing : ∀ cycle ∈ after.cycles, cycle ⊆ search.visited ∧
      cycle.Pairwise fun earlier later => search.rank earlier < search.rank later)
    (spans : target ∈ search.active → ∀ other ∈ search.active,
      search.rank target ≤ search.rank other → after.Reports other) :
    Timeline graph after := by
  have sameActive : after.active = search.active := by simp [active, top, stack]
  have sameRank : after.rank = search.rank := by
    funext other
    rw [rank, rank, visited]
  have sameLeft : ∀ {other}, after.HasLeft other → search.HasLeft other := by
    intro other left
    rw [HasLeft, visited, onStack] at left
    exact left
  constructor
  · rw [sameActive, sameRank]
    exact timeline.nested
  · rw [visited, sameRank]
    exact climbing
  · intro source entered other isTarget
    rw [visited] at entered ⊢
    rcases timeline.examined source entered other isTarget with isAwaited | isKnown
    · rcases isAwaited.advance top stack with isAwaited | rfl
      · exact .inl isAwaited
      · exact .inr known
    · exact .inr isKnown
  · rw [sameActive, sameRank]
    intro source left
    exact timeline.enclosed source (sameLeft left)
  · rw [sameActive, sameRank, visited]
    intro source entered other isTarget notAwaited otherActive between betweenActive above below
    by_cases wasAwaited : search.Awaits source other
    · rcases wasAwaited.advance top stack with isAwaited | rfl
      · exact absurd isAwaited notAwaited
      · exact spans otherActive between betweenActive above
    · rcases timeline.spanned source entered other isTarget wasAwaited otherActive between
        betweenActive above below with ⟨cycle, reported, member⟩
      exact ⟨cycle, reports reported, member⟩

end Timeline

/-! ## Entering a vertex -/

/-- The search after a vertex has been entered on top of a stack. -/
def entered (graph : Digraph V) (search : Search V) (stack : List (Frame V)) (target : V) :
    Search V :=
  Search.enter graph { search with stack := stack } target

section Entered

variable {stack : List (Frame V)} {target : V}

theorem mem_visited_entered {vertex : V} :
    vertex ∈ (entered graph search stack target).visited ↔
      vertex = target ∨ vertex ∈ search.visited :=
  List.mem_cons

/-- Entering a vertex leaves none. -/
theorem HasLeft.of_entered {other : V}
    (left : (entered graph search stack target).HasLeft other) : search.HasLeft other := by
  have offStack : other ≠ target ∧ other ∉ search.onStack :=
    List.ne_and_not_mem_of_not_mem_cons left.2
  exact ⟨(List.mem_cons.1 left.1).resolve_left offStack.1, offStack.2⟩

/-- All targets of the vertex are still to be looked at. -/
theorem awaits_entered_self {other : V} (isTarget : other ∈ graph.targets target) :
    (entered graph search stack target).Awaits target other :=
  ⟨_, List.mem_cons_self, rfl, isTarget⟩

theorem Awaits.entered {source other : V}
    (awaits : Awaits { search with stack := stack } source other) :
    (entered graph search stack target).Awaits source other := by
  rcases awaits with ⟨frame, isFrame, isSource, isRemaining⟩
  exact ⟨frame, List.mem_cons_of_mem _ isFrame, isSource, isRemaining⟩

end Entered

/-- A vertex is about to be entered, on a stack from which nothing is gone but the vertex, which
may have been looked at just before. -/
structure Entering (graph : Digraph V) (search : Search V) (stack : List (Frame V)) (target : V) :
    Prop where
  timeline : Timeline graph search
  coherent : Coherent graph search
  fresh : target ∉ search.visited
  sameActive : stack.map Frame.vertex = search.active
  awaits : ∀ {source other}, search.Awaits source other →
    Awaits { search with stack := stack } source other ∨ other = target

namespace Entering

variable {stack : List (Frame V)} {target : V}

theorem active_eq (entering : Entering graph search stack target) :
    (entered graph search stack target).active = target :: search.active := by
  rw [← entering.sameActive]
  rfl

theorem mem_active (entering : Entering graph search stack target) {vertex : V}
    (isActive : vertex ∈ (entered graph search stack target).active) :
    vertex = target ∨ vertex ∈ search.active := by
  rw [entering.active_eq] at isActive
  exact List.mem_cons.1 isActive

theorem examined (entering : Entering graph search stack target) {source other : V}
    (known : source ∈ (entered graph search stack target).visited)
    (isTarget : other ∈ graph.targets source) :
    (entered graph search stack target).Awaits source other ∨
      other ∈ (entered graph search stack target).visited := by
  rcases mem_visited_entered.1 known with rfl | known
  · exact .inl (awaits_entered_self isTarget)
  · rcases entering.timeline.examined source known other isTarget with isAwaited | otherKnown
    · rcases entering.awaits isAwaited with stillAwaited | rfl
      · exact .inl stillAwaited.entered
      · exact .inr (mem_visited_entered.2 (.inl rfl))
    · exact .inr (mem_visited_entered.2 (.inr otherKnown))

end Entering

variable [LawfulBEq V]

namespace Timeline

variable {vertex target : V} {remaining : List V} {frames : List (Frame V)}

/-- Later vertices that a vertex leads to are left before the vertex is. -/
theorem hasLeft_of_leadsAfter (timeline : Timeline graph search) (coherent : Coherent graph search)
    {source : V} (left : search.HasLeft source) (leads : search.LeadsAfter graph source target) :
    search.HasLeft target := by
  -- What came after the source, and is active, came after everything on the path so far.
  have along : search.HasLeft target ∧ ∀ vertex ∈ search.active,
      search.rank source < search.rank vertex → search.rank target < search.rank vertex := by
    induction leads with
    | refl => exact ⟨left, fun _ _ later => later⟩
    | @tail middle target _ step ih =>
        rcases ih with ⟨middleLeft, middleBefore⟩
        have isTarget := edge_iff_mem.1 step.1
        have enclosed := timeline.enclosed middle middleLeft target isTarget
        refine ⟨⟨timeline.target_visited coherent middleLeft isTarget, ?_⟩, ?_⟩
        · rw [coherent.onStack]
          intro isActive
          have later := enclosed target isActive (middleBefore target isActive step.2)
          omega
        · intro vertex isActive later
          exact enclosed vertex isActive (middleBefore vertex isActive later)
  exact along.1

end Timeline

theorem rank_lt_length {vertex : V} (known : vertex ∈ search.visited) :
    search.rank vertex < search.visited.length := by
  rw [rank, ← List.length_reverse]
  exact List.idxOf_lt_length_of_mem (List.mem_reverse.2 known)

section Entered

variable {stack : List (Frame V)} {target : V}

/-- Numbers are given once. -/
theorem rank_entered_of_mem {vertex : V} (known : vertex ∈ search.visited) :
    (entered graph search stack target).rank vertex = search.rank vertex := by
  simp only [rank, entered, enter, List.reverse_cons]
  exact List.idxOf_append_of_mem (List.mem_reverse.2 known)

theorem rank_entered_self (fresh : target ∉ search.visited) :
    (entered graph search stack target).rank target = search.visited.length := by
  simp [rank, entered, enter, List.idxOf_append_of_notMem, fresh]

/-- Whether a second vertex comes after a first one is settled when the first is entered. -/
theorem rank_entered_lt_iff {first : V} (known : first ∈ search.visited) (second : V) :
    (entered graph search stack target).rank first <
        (entered graph search stack target).rank second ↔
      search.rank first < search.rank second := by
  rw [rank_entered_of_mem known]
  by_cases secondKnown : second ∈ search.visited
  · rw [rank_entered_of_mem secondKnown]
  · have early := rank_lt_length known
    have unnumbered : search.rank second = search.visited.length := by simp [rank, secondKnown]
    have late : search.visited.length ≤ (entered graph search stack target).rank second := by
      simp [rank, entered, enter, List.idxOf_append_of_notMem, secondKnown]
    omega

theorem LeadsAfter.of_entered {source other : V} (known : source ∈ search.visited)
    (leads : (entered graph search stack target).LeadsAfter graph source other) :
    search.LeadsAfter graph source other := by
  apply Relation.ReflTransGen.mono _ _ _ leads
  intro left right step
  exact ⟨step.1, (rank_entered_lt_iff known right).1 step.2⟩

end Entered

namespace Entering

variable {stack : List (Frame V)} {target : V}

/-- An active vertex that does not come after a vertex entered before was active before. -/
theorem wasActive (entering : Entering graph search stack target) {vertex bound : V}
    (known : bound ∈ search.visited)
    (isActive : vertex ∈ (entered graph search stack target).active)
    (early : (entered graph search stack target).rank vertex ≤ search.rank bound) :
    vertex ∈ search.active := by
  rcases entering.mem_active isActive with rfl | wasActive
  · have boundEarly := rank_lt_length known
    rw [rank_entered_self entering.fresh] at early
    omega
  · exact wasActive

theorem nested (entering : Entering graph search stack target) :
    (entered graph search stack target).active.Pairwise fun inner outer =>
      (entered graph search stack target).rank outer <
        (entered graph search stack target).rank inner := by
  rw [entering.active_eq, List.pairwise_cons]
  constructor
  · intro outer isOuter
    have known := entering.coherent.visited isOuter
    rw [rank_entered_self entering.fresh, rank_entered_of_mem known]
    exact rank_lt_length known
  · apply entering.timeline.nested.imp_of_mem
    intro inner outer _ isOuter
    exact (rank_entered_lt_iff (entering.coherent.visited isOuter) inner).2

theorem climbing (entering : Entering graph search stack target) {cycle : List V}
    (reported : cycle ∈ search.cycles) :
    cycle ⊆ (entered graph search stack target).visited ∧
      cycle.Pairwise fun earlier later => (entered graph search stack target).rank earlier <
        (entered graph search stack target).rank later := by
  rcases entering.timeline.climbing cycle reported with ⟨visited, climbing⟩
  constructor
  · exact fun vertex member => mem_visited_entered.2 (.inr (visited member))
  · apply climbing.imp_of_mem
    intro earlier later isEarlier _
    exact (rank_entered_lt_iff (visited isEarlier) later).2

theorem enclosed (entering : Entering graph search stack target) {source other later : V}
    (left : (entered graph search stack target).HasLeft source)
    (isTarget : other ∈ graph.targets source)
    (laterActive : later ∈ (entered graph search stack target).active)
    (before : (entered graph search stack target).rank source <
      (entered graph search stack target).rank later) :
    (entered graph search stack target).rank other <
      (entered graph search stack target).rank later := by
  have wasLeft := left.of_entered
  have known := entering.timeline.target_visited entering.coherent wasLeft isTarget
  rcases entering.mem_active laterActive with rfl | wasActive
  · rw [rank_entered_of_mem known, rank_entered_self entering.fresh]
    exact rank_lt_length known
  · rw [rank_entered_lt_iff wasLeft.1] at before
    rw [rank_entered_lt_iff known]
    exact entering.timeline.enclosed source wasLeft other isTarget later wasActive before

/-- The new vertex comes after all others, so it is neither in between nor the one looked at. -/
theorem spanned (entering : Entering graph search stack target) {source other between : V}
    (known : source ∈ (entered graph search stack target).visited)
    (isTarget : other ∈ graph.targets source)
    (notAwaited : ¬ (entered graph search stack target).Awaits source other)
    (otherActive : other ∈ (entered graph search stack target).active)
    (betweenActive : between ∈ (entered graph search stack target).active)
    (above : (entered graph search stack target).rank other ≤
      (entered graph search stack target).rank between)
    (below : (entered graph search stack target).rank between ≤
      (entered graph search stack target).rank source) : search.Reports between := by
  rcases mem_visited_entered.1 known with rfl | known
  · exact absurd (awaits_entered_self isTarget) notAwaited
  · rw [rank_entered_of_mem known] at below
    have oldBetween := entering.wasActive known betweenActive below
    have oldOther := entering.wasActive known otherActive (above.trans below)
    rw [rank_entered_of_mem (entering.coherent.visited oldBetween)] at above below
    rw [rank_entered_of_mem (entering.coherent.visited oldOther)] at above
    have wasNotAwaited : ¬ search.Awaits source other := by
      intro isAwaited
      rcases entering.awaits isAwaited with stillAwaited | rfl
      · exact notAwaited stillAwaited.entered
      · exact entering.fresh (entering.coherent.visited oldOther)
    exact entering.timeline.spanned source known other isTarget wasNotAwaited oldOther between
      oldBetween above below

theorem timeline_entered (entering : Entering graph search stack target) :
    Timeline graph (entered graph search stack target) where
  nested := entering.nested
  climbing _ reported := entering.climbing reported
  examined _ known _ isTarget := entering.examined known isTarget
  enclosed _ left _ isTarget _ isActive := entering.enclosed left isTarget isActive
  spanned _ known _ isTarget notAwaited otherActive _ isActive :=
    entering.spanned known isTarget notAwaited otherActive isActive

end Entering

/-! ## Closing a cycle and leaving a vertex -/

/-- Leaving a vertex leaves no other. -/
theorem HasLeft.of_leave {vertex other : V} {path : List V} {stack : List (Frame V)}
    (different : other ≠ vertex)
    (left : HasLeft
      { search with onStack := search.onStack.erase vertex, path := path, stack := stack } other) :
    search.HasLeft other :=
  ⟨left.1, fun member => left.2 ((List.mem_erase_of_ne different).2 member)⟩

namespace Timeline

variable {vertex target : V} {remaining : List V} {frames : List (Frame V)}

/-- Active vertices that do not come before an active one are on the path from there on. -/
theorem mem_sliceFrom (timeline : Timeline graph search) (coherent : Coherent graph search)
    (isActive : target ∈ search.active) {other : V} (otherActive : other ∈ search.active)
    (later : search.rank target ≤ search.rank other) : other ∈ sliceFrom target search.path := by
  have climbs : search.path.Pairwise fun outer inner => search.rank outer < search.rank inner := by
    rw [coherent.path, List.pairwise_reverse]
    exact timeline.nested
  have onPath : ∀ {member}, member ∈ search.active → member ∈ search.path := by
    intro member isMember
    rw [coherent.path]
    exact List.mem_reverse.2 isMember
  have otherOnPath := onPath otherActive
  rcases List.append_of_mem (onPath isActive) with ⟨before, behind, split⟩
  rw [split] at climbs otherOnPath ⊢
  rcases List.pairwise_append.1 climbs with ⟨-, -, across⟩
  have fresh : target ∉ before := by
    intro member
    have lower := across target member target List.mem_cons_self
    omega
  rw [sliceFrom_append fresh]
  rcases List.mem_append.1 otherOnPath with isBefore | isBehind
  · have lower := across other isBefore target List.mem_cons_self
    omega
  · exact isBehind

theorem close (timeline : Timeline graph search) (coherent : Coherent graph search)
    (top : search.stack = ⟨vertex, target :: remaining⟩ :: frames)
    (known : target ∈ search.visited) :
    Timeline graph
      { search with
        stack := ⟨vertex, remaining⟩ :: frames
        cycles := search.cycles ++ [sliceFrom target search.path] } := by
  have isPart : sliceFrom target search.path <:+ search.active.reverse := by
    rw [← coherent.path]
    exact List.dropWhile_suffix _
  refine timeline.use top rfl rfl rfl known (List.subset_append_left _ _) ?_ ?_
  · intro cycle reported
    rcases List.mem_append.1 reported with reported | isNew
    · exact timeline.climbing cycle reported
    · rw [List.mem_singleton.1 isNew]
      constructor
      · intro other member
        exact coherent.visited (List.mem_reverse.1 (isPart.subset member))
      · apply List.Pairwise.sublist isPart.sublist
        exact List.pairwise_reverse.2 timeline.nested
  · intro isActive other otherActive later
    exact ⟨_, List.mem_append_right _ (List.mem_singleton.2 rfl),
      timeline.mem_sliceFrom coherent isActive otherActive later⟩

theorem leave (timeline : Timeline graph search) (top : search.stack = ⟨vertex, []⟩ :: frames) :
    Timeline graph
      { search with
        onStack := search.onStack.erase vertex
        path := search.path.dropLast
        stack := frames } := by
  have activeIs : search.active = vertex :: frames.map Frame.vertex := by simp [active, top]
  have wasActive : ∀ {other}, other ∈ frames.map Frame.vertex → other ∈ search.active := by
    intro other member
    rw [activeIs]
    exact List.mem_cons_of_mem _ member
  have stillAwaits : ∀ {source other}, search.Awaits source other →
      ∃ frame ∈ frames, frame.vertex = source ∧ other ∈ frame.remaining := by
    rintro source other ⟨frame, isFrame, isSource, isRemaining⟩
    rw [top] at isFrame
    rcases List.mem_cons.1 isFrame with rfl | isFrame
    · cases isRemaining
    · exact ⟨frame, isFrame, isSource, isRemaining⟩
  constructor
  · have nested := timeline.nested
    rw [activeIs] at nested
    exact (List.pairwise_cons.1 nested).2
  · exact timeline.climbing
  · intro source entered target isTarget
    exact (timeline.examined source entered target isTarget).imp_left stillAwaits
  · intro source left target isTarget later laterActive before
    by_cases isVertex : source = vertex
    · have noLater := timeline.rank_le_innermost activeIs (wasActive laterActive)
      rw [isVertex] at before
      exact absurd before (Nat.not_lt.2 noLater)
    · exact timeline.enclosed source (left.of_leave isVertex) target isTarget later
        (wasActive laterActive) before
  · intro source entered target isTarget notAwaited targetActive between betweenActive
    have wasNotAwaited : ¬ search.Awaits source target :=
      fun isAwaited => notAwaited (stillAwaits isAwaited)
    exact timeline.spanned source entered target isTarget wasNotAwaited (wasActive targetActive)
      between (wasActive betweenActive)

theorem root {root : V} (fresh : root ∉ search.visited) (coherent : Coherent graph search)
    (timeline : Timeline graph search) : Timeline graph (search.enter graph root) :=
  Entering.timeline_entered ⟨timeline, coherent, fresh, rfl, .inl⟩

theorem move {after : Search V} (moved : Move graph search after)
    (coherent : Coherent graph search) (timeline : Timeline graph search) :
    Timeline graph after := by
  cases moved with
  | leave top => exact timeline.leave top
  | enter top fresh =>
      have sameActive : search.active = _ := congrArg (List.map Frame.vertex) top
      exact Entering.timeline_entered ⟨timeline, coherent, fresh, sameActive.symm,
        fun isAwaited => isAwaited.advance top rfl⟩
  | close top known onStack => exact timeline.close coherent top known
  | pass top known offStack =>
      refine timeline.use top rfl rfl rfl known (List.Subset.refl _) timeline.climbing ?_
      intro isActive
      rw [coherent.onStack] at offStack
      exact absurd isActive offStack

end Timeline

/-! ## Vertices that return -/

/-- Every vertex that has been left, and returns, is on a reported cycle. -/
def ReportsReturns (graph : Digraph V) (search : Search V) : Prop :=
  ∀ vertex, search.HasLeft vertex → search.Returns graph vertex → search.Reports vertex

namespace ReportsReturns

theorem enter (reports : ReportsReturns graph search) (timeline : Timeline graph search)
    (coherent : Coherent graph search) {stack : List (Frame V)} {target : V} :
    ReportsReturns graph (entered graph search stack target) := by
  rintro vertex left ⟨last, first, toLast, edge, fromFirst⟩
  have wasLeft := left.of_entered
  have toLast := toLast.of_entered wasLeft.1
  have lastLeft := timeline.hasLeft_of_leadsAfter coherent wasLeft toLast
  have firstVisited := timeline.target_visited coherent lastLeft (edge_iff_mem.1 edge)
  exact reports vertex wasLeft ⟨last, first, toLast, edge, fromFirst.of_entered firstVisited⟩

/-- When a vertex is left, what it leads to through later vertices has been left. So the vertex
that points back is still active, and the cycle found then goes through the vertex. -/
theorem leave {vertex : V} {frames : List (Frame V)} (reports : ReportsReturns graph search)
    (timeline : Timeline graph search) (coherent : Coherent graph search)
    (top : search.stack = ⟨vertex, []⟩ :: frames) :
    ReportsReturns graph
      { search with
        onStack := search.onStack.erase vertex
        path := search.path.dropLast
        stack := frames } := by
  have isActive : vertex ∈ search.active := by simp [active, top]
  rintro other left ⟨last, first, toLast, edge, fromFirst⟩
  by_cases isVertex : other = vertex
  · subst isVertex
    have lastLeft :=
      (timeline.leave top).hasLeft_of_leadsAfter (coherent.move (.leave top)) left toLast
    have notAwaited : ¬ search.Awaits last first := by
      by_cases isLast : last = other
      · rw [isLast]
        exact coherent.not_awaits_innermost top first
      · exact (lastLeft.of_leave isLast).not_awaits coherent first
    have isTarget := edge_iff_mem.1 edge
    have firstVisited := (timeline.examined last lastLeft.1 first isTarget).resolve_left notAwaited
    have firstActive : first ∈ search.active := by
      by_contra inactive
      rw [← coherent.onStack] at inactive
      have otherLeft := timeline.hasLeft_of_leadsAfter coherent ⟨firstVisited, inactive⟩ fromFirst
      exact otherLeft.2 (coherent.onStack ▸ isActive)
    exact timeline.spanned last lastLeft.1 first isTarget notAwaited firstActive other isActive
      fromFirst.rank_le toLast.rank_le
  · exact reports other (left.of_leave isVertex) ⟨last, first, toLast, edge, fromFirst⟩

theorem move {before after : Search V} (moved : Move graph before after)
    (coherent : Coherent graph before) (timeline : Timeline graph before)
    (reports : ReportsReturns graph before) : ReportsReturns graph after := by
  cases moved with
  | leave top => exact reports.leave timeline coherent top
  | enter top fresh => exact reports.enter timeline coherent
  | close top known onStack =>
      intro vertex left returns
      rcases reports vertex left returns with ⟨cycle, reported, member⟩
      exact ⟨cycle, List.mem_append_left _ reported, member⟩
  | pass top known offStack => exact reports

end ReportsReturns

end Search

variable [BEq V] [LawfulBEq V] {graph : Digraph V}

theorem search_timeline (graph : Digraph V) :
    graph.search.Timeline graph ∧ graph.search.ReportsReturns graph := by
  have all : graph.search.Coherent graph ∧ graph.search.Timeline graph ∧
      graph.search.ReportsReturns graph := by
    apply search_induct (fun search =>
      search.Coherent graph ∧ search.Timeline graph ∧ search.ReportsReturns graph)
    · exact ⟨.start, .start, by simp [Search.ReportsReturns, Search.HasLeft]⟩
    · rintro search root idle fresh ⟨coherent, timeline, reports⟩
      exact ⟨coherent.root idle fresh, timeline.root fresh coherent,
        reports.enter timeline coherent⟩
    · rintro before after moved ⟨coherent, timeline, reports⟩
      exact ⟨coherent.move moved, timeline.move moved coherent,
        reports.move moved coherent timeline⟩
  exact all.2

/-- The vertices on reported cycles are those that return. -/
theorem exists_mem_findCycles_iff {vertex : V} :
    (∃ cycle ∈ graph.findCycles, vertex ∈ cycle) ↔ graph.search.Returns graph vertex := by
  rcases graph.search_timeline with ⟨timeline, reports⟩
  constructor
  · rintro ⟨cycle, reported, member⟩
    exact Search.returns_of_mem_cycle (isCycle_of_mem_findCycles reported).2
      (timeline.climbing cycle reported).2 member
  · intro returns
    rcases Relation.TransGen.head'_iff.1 returns.transGen with ⟨target, edge, -⟩
    exact reports vertex (search_hasLeft edge) returns

end ImportAtlas.Digraph
