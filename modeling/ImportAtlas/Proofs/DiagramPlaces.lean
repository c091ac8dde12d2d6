import ImportAtlas.Proofs.ZombieDiagram

/-!
# Places in the diagram of zombie clusters

The components of a cluster stand on a grid, each in a cell of its own. The functions of a component
stand to the left of that grid, each in the first slot that no earlier function below the same node
has taken. So what is drawn below one node stands apart, even where a component goes by the
identifier of its cluster and its functions are drawn among the components.
-/

namespace ImportAtlas.ZombieReport

/-- Nodes that do not stand in the same place below the same node. -/
def Apart (left right : Diagram.Node) : Prop :=
  left.parent = right.parent → ¬ left.position.Meets right.position

/-! ## Slots -/

/-- How many slots below a node are taken. -/
def taken (slots : Table Text Nat) (parentId : Text) : Nat := (slots.get? parentId).getD 0

theorem taken_insert (slots : Table Text Nat) (parentId other : Text) (count : Nat) :
    taken (slots.insert parentId count) other =
      if parentId = other then count else taken slots other := by
  rw [taken, Table.get?_insert]
  by_cases same : parentId = other
  · simp [same]
  · simp [same, taken]

/-- Taking a slot frees none. -/
theorem taken_le_taken_insert (slots : Table Text Nat) (parentId other : Text) :
    taken slots other ≤ taken (slots.insert parentId (taken slots parentId + 1)) other := by
  rw [taken_insert]
  split
  · rename_i same
    rw [same]
    exact Nat.le_succ _
  · exact Nat.le_refl _

/-- The place of a slot. -/
def slotPosition (slot : Nat) : Diagram.Position :=
  ⟨.int functionOrigin.1, .int (functionOrigin.2 + slot * functionStep)⟩

theorem eq_of_meets {left right : Nat} (meets : (slotPosition left).Meets (slotPosition right)) :
    left = right := by
  have sameY := meets.2
  simp only [slotPosition, Number.key_int, Number.Key.ratio.injEq, and_true] at sameY
  exact Diagram.eq_of_spaced (by decide) sameY

section FunctionNodes

variable (catalog : Catalog) (parents : Table Text Text) (clusterId : Text)

/-- A function is drawn in a slot that was free when those before it had been drawn. -/
theorem exists_slot_of_mem {slots : Table Text Nat} {functions : List (Text × Atom)}
    {node : Diagram.Node}
    (drawn : node ∈ functionNodes catalog parents clusterId slots functions) :
    ∃ function ∈ functions, ∃ slot,
      taken slots (parentOf parents clusterId function.1) ≤ slot ∧
      node = functionNode catalog (parentOf parents clusterId function.1) function.1 function.2
        slot := by
  induction functions generalizing slots with
  | nil => cases drawn
  | cons function functions ih =>
      rw [functionNodes] at drawn
      cases List.mem_cons.1 drawn with
      | inl first => exact ⟨function, List.mem_cons_self, _, Nat.le_refl _, first⟩
      | inr later =>
          obtain ⟨other, isOther, slot, free, isNode⟩ := ih later
          exact ⟨other, List.mem_cons_of_mem function isOther, slot,
            Nat.le_trans (taken_le_taken_insert slots _ _) free, isNode⟩

/-- Functions below one node stand in different slots. -/
theorem pairwise_functionNodes (slots : Table Text Nat) (functions : List (Text × Atom)) :
    (functionNodes catalog parents clusterId slots functions).Pairwise Apart := by
  induction functions generalizing slots with
  | nil => exact .nil
  | cons function functions ih =>
      rw [functionNodes]
      refine .cons ?_ (ih _)
      intro node drawn sameParent meets
      obtain ⟨other, -, slot, free, rfl⟩ := exists_slot_of_mem catalog parents clusterId drawn
      -- The first function has moved the count of its own parent past its slot.
      have same : parentOf parents clusterId function.1 = parentOf parents clusterId other.1 :=
        Option.some.inj sameParent
      have isSlot : taken slots (parentOf parents clusterId function.1) = slot := eq_of_meets meets
      rw [← same, taken_insert, if_pos rfl, ← isSlot] at free
      exact Nat.not_succ_le_self _ free

end FunctionNodes

/-! ## Clusters -/

section Cluster

variable (catalog : Catalog) (clusterId : Text) (members : List Vertex)

/-- The nodes of the components of a cluster. -/
def componentNodes : List Diagram.Node :=
  List.zipWith (componentNode catalog clusterId) (parentNodes clusterId members).entries
    (Diagram.wholeGrid (parentNodes clusterId members).size componentOrigin.1 componentOrigin.2
      componentSpacing)

theorem map_position_componentNodes :
    (componentNodes catalog clusterId members).map Diagram.Node.position =
      Diagram.wholeGrid (parentNodes clusterId members).size componentOrigin.1 componentOrigin.2
        componentSpacing :=
  Diagram.map_position_zipWith (fun _ _ => rfl) (Diagram.length_wholeGrid _ _ _ _)

theorem pairwise_componentNodes :
    (componentNodes catalog clusterId members).Pairwise Apart := by
  have spaced : componentSpacing ≠ 0 := by decide
  have onGrid := Diagram.pairwise_wholeGrid (parentNodes clusterId members).size
    componentOrigin.1 componentOrigin.2 spaced
  rw [← map_position_componentNodes catalog, List.pairwise_map] at onGrid
  apply onGrid.imp
  intro left right apart _
  exact apart

theorem parent_of_mem_componentNodes {node : Diagram.Node}
    (drawn : node ∈ componentNodes catalog clusterId members) : node.parent = some clusterId := by
  have isOutline : outline node ∈ (componentNodes catalog clusterId members).map outline :=
    List.mem_map_of_mem drawn
  rw [componentNodes, outline_componentNodes] at isOutline
  obtain ⟨id, -, same⟩ := List.mem_map.1 isOutline
  exact (congrArg Outline.parent same).symm

/-- Functions stand to the left of all components. -/
theorem not_meets_of_slot {node : Diagram.Node}
    (drawn : node ∈ componentNodes catalog clusterId members) (slot : Nat) :
    ¬ node.position.Meets (slotPosition slot) := by
  intro meets
  have onGrid : node.position ∈ (componentNodes catalog clusterId members).map
      Diagram.Node.position := List.mem_map_of_mem drawn
  rw [map_position_componentNodes] at onGrid
  obtain ⟨x, isX, beyond⟩ := Diagram.exists_x_of_mem_wholeGrid (by decide) onGrid
  have sameX := meets.1
  rw [isX, slotPosition, Number.key_int, Number.key_int, Number.Key.ratio.injEq] at sameX
  rw [sameX.1] at beyond
  exact absurd beyond (by decide)

/-- A cluster is drawn as its tree, and no two nodes of it that have the same parent stand in the
same place, whatever its members. -/
theorem siblings_stand_apart (index : Int) (y : Number) :
    (drawCluster clusterId index members y catalog).nodes.map outline = tree clusterId members ∧
    (drawCluster clusterId index members y catalog).nodes.Pairwise fun left right =>
      left.parent = right.parent → ¬ left.position.Meets right.position := by
  refine ⟨outline_drawCluster catalog clusterId members index y, ?_⟩
  change (clusterNode clusterId index y :: (componentNodes catalog clusterId members ++
    functionNodes catalog (parentNodes clusterId members) clusterId ∅
      (members.filterMap Vertex.function?))).Pairwise Apart
  rw [List.pairwise_cons, List.pairwise_append]
  refine ⟨?_, pairwise_componentNodes catalog clusterId members,
    pairwise_functionNodes catalog _ clusterId ∅ _, ?_⟩
  · -- The node of the cluster is the only one without a parent.
    intro node drawn sameParent
    cases List.mem_append.1 drawn with
    | inl isComponent =>
        rw [parent_of_mem_componentNodes catalog clusterId members isComponent] at sameParent
        cases sameParent
    | inr isFunction =>
        obtain ⟨function, -, slot, -, rfl⟩ := exists_slot_of_mem catalog _ clusterId isFunction
        cases sameParent
  · intro component isComponent node isFunction _
    obtain ⟨function, -, slot, -, rfl⟩ := exists_slot_of_mem catalog _ clusterId isFunction
    exact not_meets_of_slot catalog clusterId members isComponent slot

/-- A component that goes by the identifier of the cluster has its functions among the
components. -/
example : (drawCluster "x" 0
      [.component "x", .function "x" (.text "f"), .function "y" (.text "g"),
        .function "x" (.text "h")] 0 {}).nodes.map
      (fun node => (node.parent, node.position)) =
    ([(none, ⟨0, 0⟩),
      (some "x", ⟨150, 50⟩), (some "x", ⟨370, 50⟩),
      (some "x", ⟨50, 60⟩), (some "x/y", ⟨50, 60⟩), (some "x", ⟨50, 100⟩)] :
      List (Option Text × Diagram.Position)) := by
  decide +kernel

end Cluster

end ImportAtlas.ZombieReport
