import ImportAtlas.Digraph.Cycle

/-!
# The search as a recursion

The search told without a stack. Visiting a vertex is a call with a path of its own, which is the
path of its caller and that vertex. What has been visited and the cycles that were found are
handed on from call to call. Main statement: the search with a stack ends with the findings of the
recursion.

A frame of the stack is a call that has begun. So a search that has just entered a vertex runs as
if it had never entered it and knew what visiting it finds, whatever lies below on the stack.
-/

namespace ImportAtlas.Digraph

variable {V : Type} [BEq V]

/-! ## The recursion -/

/-- What the calls of a recursive search hand on. -/
structure Findings (V : Type) where
  visited : List V := []
  cycles : List (List V) := []

namespace Findings

def mark (findings : Findings V) (vertex : V) : Findings V :=
  { findings with visited := vertex :: findings.visited }

def record (findings : Findings V) (cycle : List V) : Findings V :=
  { findings with cycles := findings.cycles ++ [cycle] }

end Findings

/-- The more has been visited, the less is pending. -/
theorem pending_le_of_subset [EquivBEq V] (graph : Digraph V) (weight : List V → Nat)
    {visited more : List V} (subset : visited ⊆ more) :
    graph.pending weight more ≤ graph.pending weight visited := by
  rw [pending, pending]
  induction graph.entries with
  | nil => simp [pendingOf]
  | cons entry rest ih =>
      by_cases old : visited.contains entry.1
      · have still : more.contains entry.1 = true := by
          rcases List.contains_iff_exists_mem_beq.1 old with ⟨vertex, member, equal⟩
          exact List.contains_iff_exists_mem_beq.2 ⟨vertex, subset member, equal⟩
        simp only [pendingOf, old, still, if_true]
        exact ih
      · simp only [pendingOf, old, Bool.false_eq_true, if_false]
        split
        · omega
        · omega

/-- The targets of a new vertex are no longer pending when it has been visited. -/
theorem pending_cons_add_targets_le [EquivBEq V] (graph : Digraph V) {vertex : V}
    {visited : List V} (fresh : visited.contains vertex = false) :
    graph.pending List.length (vertex :: visited) + (graph.targets vertex).length ≤
      graph.pending List.length visited := by
  cases found : graph.get? vertex with
  | none => simpa [targets, found] using graph.pending_cons_le List.length vertex visited
  | some listed => simpa [targets, found] using graph.pending_cons_add_le List.length fresh found

mutual

/-- Visit a vertex that has not been visited: put it at the end of a path of its own, mark it and
go through its targets. -/
def visit [EquivBEq V] (graph : Digraph V) (path : List V) (vertex : V) (before : Findings V)
    (_fresh : before.visited.contains vertex = false) :
    { after : Findings V // before.visited ⊆ after.visited } :=
  let after := graph.visitEach (path ++ [vertex]) (graph.targets vertex) (before.mark vertex)
  ⟨after.1, fun _ member => after.2 (List.mem_cons_of_mem vertex member)⟩
termination_by 2 * graph.pending List.length before.visited + 1
decreasing_by
  have le := graph.pending_cons_add_targets_le _fresh
  simp only [Findings.mark]
  omega

/-- Go through targets in their order. One that has not been visited is visited; any other that
lies on the path closes the cycle from there to the end of the path. -/
def visitEach [EquivBEq V] (graph : Digraph V) (path targets : List V) (before : Findings V) :
    { after : Findings V // before.visited ⊆ after.visited } :=
  match targets with
  | [] => ⟨before, List.Subset.refl _⟩
  | target :: targets =>
      if fresh : before.visited.contains target = false then
        let ⟨middle, grown⟩ := graph.visit path target before fresh
        let after := graph.visitEach path targets middle
        ⟨after.1, List.Subset.trans grown after.2⟩
      else if path.contains target then
        let after :=
          graph.visitEach path targets (before.record (path.drop (path.idxOf target)))
        ⟨after.1, after.2⟩
      else graph.visitEach path targets before
termination_by 2 * (graph.pending List.length before.visited + targets.length)
decreasing_by
  · simp only [List.length_cons]
    omega
  · have le := graph.pending_le_of_subset List.length grown
    simp only [List.length_cons]
    omega
  · simp only [Findings.record, List.length_cons]
    omega
  · simp only [List.length_cons]
    omega

end

/-- Visit a root unless it has been visited. Nothing is on the path before a root. -/
def visitIfFresh [EquivBEq V] (graph : Digraph V) (before : Findings V) (root : V) : Findings V :=
  if fresh : before.visited.contains root = false then (graph.visit [] root before fresh).1
  else before

/-- Visit the vertices of a graph in their order. -/
def visitAll [EquivBEq V] (graph : Digraph V) : Findings V :=
  graph.keys.foldl graph.visitIfFresh {}

/-! ## Steps of a search with findings -/

namespace Search

/-- A search that has come to some findings and goes on with a stack. -/
def resume (findings : Findings V) (onStack path : List V) (stack : List (Frame V)) : Search V :=
  { visited := findings.visited, onStack, path, stack, cycles := findings.cycles }

/-- The part of a path from a vertex on is what is left without the vertices before it. -/
theorem sliceFrom_eq_drop (vertex : V) (path : List V) :
    sliceFrom vertex path = path.drop (path.idxOf vertex) := by
  induction path with
  | nil => rfl
  | cons first rest ih =>
      cases equal : first == vertex with
      | true => simp [sliceFrom, List.idxOf_cons, equal]
      | false => simpa [sliceFrom, List.idxOf_cons, equal] using ih

/-- The active vertices are those on the path. -/
def Aligned (onStack path : List V) : Prop :=
  ∀ vertex, onStack.contains vertex = path.contains vertex

theorem Aligned.enter {onStack path : List V} (aligned : Aligned onStack path) (vertex : V) :
    Aligned (vertex :: onStack) (path ++ [vertex]) := by
  intro other
  rw [List.contains_cons, aligned other]
  simp [Bool.or_comm]

variable [EquivBEq V] (graph : Digraph V)

theorem run_idle (findings : Findings V) (onStack path : List V) :
    (resume findings onStack path []).run graph = resume findings onStack path [] := by
  rw [run, dif_pos (by rfl)]

theorem run_busy (findings : Findings V) (onStack path : List V) (frame : Frame V)
    (frames : List (Frame V)) :
    (resume findings onStack path (frame :: frames)).run graph =
      ((resume findings onStack path (frame :: frames)).step graph).run graph := by
  rw [run, dif_neg (by simp [resume])]

/-- A frame without targets is taken off together with its vertex. -/
theorem run_leave (findings : Findings V) (onStack path : List V) (vertex : V)
    (frames : List (Frame V)) :
    (resume findings (vertex :: onStack) (path ++ [vertex]) (⟨vertex, []⟩ :: frames)).run graph =
      (resume findings onStack path frames).run graph := by
  rw [run_busy]
  simp [step, resume, List.erase_cons]

section Targets

variable {findings : Findings V} {onStack path remaining : List V} {vertex target : V}
  {frames : List (Frame V)}

theorem run_enter (fresh : findings.visited.contains target = false) :
    (resume findings onStack path (⟨vertex, target :: remaining⟩ :: frames)).run graph =
      (resume (findings.mark target) (target :: onStack) (path ++ [target])
        (⟨target, graph.targets target⟩ :: ⟨vertex, remaining⟩ :: frames)).run graph := by
  rw [run_busy]
  simp only [step, resume, fresh, Bool.not_false, if_true]
  rfl

theorem run_close (known : findings.visited.contains target = true)
    (active : onStack.contains target = true) :
    (resume findings onStack path (⟨vertex, target :: remaining⟩ :: frames)).run graph =
      (resume (findings.record (path.drop (path.idxOf target))) onStack path
        (⟨vertex, remaining⟩ :: frames)).run graph := by
  rw [run_busy, ← sliceFrom_eq_drop]
  simp only [step, resume, known, active, Bool.not_true, Bool.false_eq_true, if_false, if_true]
  rfl

theorem run_pass (known : findings.visited.contains target = true)
    (inactive : onStack.contains target = false) :
    (resume findings onStack path (⟨vertex, target :: remaining⟩ :: frames)).run graph =
      (resume findings onStack path (⟨vertex, remaining⟩ :: frames)).run graph := by
  rw [run_busy]
  simp only [step, resume, known, inactive, Bool.not_true, Bool.false_eq_true, if_false]

end Targets

/-! ## Frames are calls -/

/-- A search that has entered a vertex runs as one that has not and knows what visiting it finds. -/
def RunsVisit (path : List V) (vertex : V) (before : Findings V)
    (fresh : before.visited.contains vertex = false) : Prop :=
  ∀ onStack frames, Aligned onStack path →
    (resume (before.mark vertex) (vertex :: onStack) (path ++ [vertex])
        (⟨vertex, graph.targets vertex⟩ :: frames)).run graph =
      (resume (graph.visit path vertex before fresh).1 onStack path frames).run graph

/-- A search with targets left in its topmost frame runs as one that has none left and knows what
going through them finds. -/
def RunsEach (path targets : List V) (before : Findings V) : Prop :=
  ∀ onStack vertex frames, Aligned onStack path →
    (resume before onStack path (⟨vertex, targets⟩ :: frames)).run graph =
      (resume (graph.visitEach path targets before).1 onStack path
        (⟨vertex, []⟩ :: frames)).run graph

variable {graph} {path targets : List V} {vertex target : V} {before : Findings V}

theorem RunsVisit.of_targets {fresh : before.visited.contains vertex = false}
    (each : RunsEach graph (path ++ [vertex]) (graph.targets vertex) (before.mark vertex)) :
    RunsVisit graph path vertex before fresh := by
  intro onStack frames aligned
  rw [each (vertex :: onStack) vertex frames (aligned.enter vertex), run_leave, visit]

theorem RunsEach.nil : RunsEach graph path [] before := by
  intro onStack vertex frames aligned
  rw [visitEach]

theorem RunsEach.enter {fresh : before.visited.contains target = false} {middle : Findings V}
    {grown : before.visited ⊆ middle.visited}
    (visited : graph.visit path target before fresh = ⟨middle, grown⟩)
    (first : RunsVisit graph path target before fresh) (rest : RunsEach graph path targets middle) :
    RunsEach graph path (target :: targets) before := by
  intro onStack vertex frames aligned
  rw [run_enter graph fresh, first onStack _ aligned, visited, rest onStack vertex frames aligned,
    visitEach, dif_pos fresh, visited]

theorem RunsEach.close (known : before.visited.contains target = true)
    (onPath : path.contains target = true)
    (rest : RunsEach graph path targets (before.record (path.drop (path.idxOf target)))) :
    RunsEach graph path (target :: targets) before := by
  intro onStack vertex frames aligned
  have active : onStack.contains target = true := (aligned target).trans onPath
  rw [run_close graph known active, rest onStack vertex frames aligned, visitEach,
    dif_neg (by simp [known]), if_pos onPath]

theorem RunsEach.pass (known : before.visited.contains target = true)
    (offPath : path.contains target = false) (rest : RunsEach graph path targets before) :
    RunsEach graph path (target :: targets) before := by
  intro onStack vertex frames aligned
  have inactive : onStack.contains target = false := (aligned target).trans offPath
  rw [run_pass graph known inactive, rest onStack vertex frames aligned, visitEach,
    dif_neg (by simp [known]), if_neg (by simp [offPath])]

/-- Whatever lies below on the stack, running a frame is making a call. -/
theorem runsVisit (graph : Digraph V) (path : List V) (vertex : V) (before : Findings V)
    (fresh : before.visited.contains vertex = false) :
    RunsVisit graph path vertex before fresh := by
  -- The two kinds of call are taken together, along the recursion that defines them.
  refine (visit.mutual_induct graph (RunsVisit graph) (RunsEach graph) ?_ ?_ ?_ ?_ ?_).1 path vertex
    before fresh
  · intro path vertex before fresh each
    exact .of_targets each
  · intro path before
    exact .nil
  · intro path before target targets fresh middle grown visited first rest
    exact .enter visited first rest
  · intro path before target targets known onPath rest
    exact .close (by simpa using known) onPath rest
  · intro path before target targets known offPath rest
    exact .pass (by simpa using known) (by simpa using offPath) rest

/-! ## Whole graphs -/

theorem visitRoot_resume (graph : Digraph V) (findings : Findings V) (root : V) :
    visitRoot graph (resume findings [] [] []) root =
      resume (graph.visitIfFresh findings root) [] [] [] := by
  cases known : findings.visited.contains root with
  | true =>
      rw [visitRoot, if_pos (by simpa [resume] using known), visitIfFresh,
        dif_neg (by simp [known])]
  | false =>
      have runs := runsVisit graph [] root findings known [] [] (fun _ => rfl)
      rw [run_idle] at runs
      rw [visitRoot, if_neg (by simp [resume, known]), visitIfFresh, dif_pos known]
      exact runs

theorem visitRoots_resume (graph : Digraph V) (roots : List V) (findings : Findings V) :
    roots.foldl (visitRoot graph) (resume findings [] [] []) =
      resume (roots.foldl graph.visitIfFresh findings) [] [] [] := by
  induction roots generalizing findings with
  | nil => rfl
  | cons root rest ih => rw [List.foldl_cons, visitRoot_resume, ih, List.foldl_cons]

end Search

/-- The search of a graph ends with the findings of the recursion and nothing left to do. -/
theorem search_eq_resume_visitAll [EquivBEq V] (graph : Digraph V) :
    graph.search = Search.resume graph.visitAll [] [] [] :=
  Search.visitRoots_resume graph graph.keys {}

end ImportAtlas.Digraph
