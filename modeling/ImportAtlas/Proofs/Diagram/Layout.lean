import ImportAtlas.Diagram.Layout
import ImportAtlas.Proofs.Except
import ImportAtlas.Settings

/-!
# Placing nodes

Positions are computed apart from the nodes that they are for. There is one for each node, so
that nothing is lost where the two are put together. Only numbers beyond the range of doubles keep
nodes from being placed on a circle. On a grid no place is given twice.
-/

namespace ImportAtlas

/-- A number that has a nearest double. -/
def Number.InRange : Number → Prop
  | .int value => value.natAbs < floatBound
  | .float _ => True

theorem Number.InRange.exists_toFloat {number : Number} (inRange : number.InRange) :
    ∃ value, number.toFloat = .ok value := by
  cases number with
  | int value =>
      refine ⟨Float.ofInt value, ?_⟩
      rw [Number.InRange] at inRange
      rw [Number.toFloat, if_pos inRange]
  | float value => exact ⟨value, rfl⟩

theorem Number.toFloat_eq_error {number : Number} (outOfRange : ¬ number.InRange) :
    number.toFloat = .error .overflow := by
  cases number with
  | int value =>
      rw [Number.InRange] at outOfRange
      rw [Number.toFloat, if_neg outOfRange]
  | float value => exact absurd trivial outOfRange

/-- Settings by which nodes can be placed on a circle. -/
def Settings.Drawable (settings : Settings) : Prop :=
  settings.center.1.InRange ∧ settings.center.2.InRange ∧ settings.radius.InRange

theorem Settings.drawable_default : ({} : Settings).Drawable := by
  have small : ∀ value : Nat, value < 1000 → (Number.int value).InRange := by
    intro value bound
    rw [Number.InRange, Int.natAbs_natCast]
    have large : 1000 ≤ Number.floatBound := by decide +kernel
    omega
  exact ⟨small 400 (by decide), small 300 (by decide), small 250 (by decide)⟩

namespace Diagram

/-- The nodes that an edge joins. -/
def Edge.ends (edge : Edge) : Text × Text := (edge.source, edge.target)

theorem exists_circle {settings : Settings} (drawable : settings.Drawable) (count : Nat) :
    ∃ positions, circle count settings.center.1 settings.center.2 settings.radius = .ok positions ∧
      positions.length = count := by
  rcases drawable with ⟨xInRange, yInRange, radiusInRange⟩
  rcases xInRange.exists_toFloat with ⟨x, isX⟩
  rcases yInRange.exists_toFloat with ⟨y, isY⟩
  rcases radiusInRange.exists_toFloat with ⟨radius, isRadius⟩
  by_cases noNode : count = 0
  · exact ⟨[], if_pos noNode, noNode.symm⟩
  · refine ⟨onCircle count x y radius, ?_, by simp [onCircle]⟩
    rw [circle, if_neg noNode, isX, isY, isRadius]
    rfl

/-- Every node that is to stand on a circle has a position there. -/
theorem length_of_circle {count : Nat} {centerX centerY radius : Number}
    {positions : List Position} (placed : circle count centerX centerY radius = .ok positions) :
    positions.length = count := by
  by_cases noNode : count = 0
  · rw [circle, if_pos noNode] at placed
    cases placed
    exact noNode.symm
  · rw [circle, if_neg noNode] at placed
    rcases bind_eq_ok_iff.1 placed with ⟨x, -, placed⟩
    rcases bind_eq_ok_iff.1 placed with ⟨y, -, placed⟩
    rcases bind_eq_ok_iff.1 placed with ⟨length, -, placed⟩
    cases placed
    simp [onCircle]

/-- A circle with nodes on it is refused if one of its numbers is out of range. -/
theorem circle_eq_error {settings : Settings} (notDrawable : ¬ settings.Drawable) {count : Nat}
    (given : count ≠ 0) :
    circle count settings.center.1 settings.center.2 settings.radius = .error .overflow := by
  rw [circle, if_neg given]
  by_cases xInRange : settings.center.1.InRange
  · rcases xInRange.exists_toFloat with ⟨x, isX⟩
    by_cases yInRange : settings.center.2.InRange
    · rcases yInRange.exists_toFloat with ⟨y, isY⟩
      have radiusOut : ¬ settings.radius.InRange := fun radiusInRange =>
        notDrawable ⟨xInRange, yInRange, radiusInRange⟩
      rw [isX, isY, Number.toFloat_eq_error radiusOut]
      rfl
    · rw [isX, Number.toFloat_eq_error yInRange]
      rfl
  · rw [Number.toFloat_eq_error xInRange]
    rfl

@[simp] theorem length_wholeGrid (count : Nat) (startX startY spacing : Int) :
    (wholeGrid count startX startY spacing).length = count := by
  simp [wholeGrid, cells]

/-- Where there is a position for each item, what is said of nodes by their items is said of all
items. -/
theorem map_zipWith_placed {α β : Type} {place : α → Position → Node} (label : Node → β)
    (image : α → β) (labelled : ∀ item position, label (place item position) = image item)
    {items : List α} {positions : List Position} (enough : positions.length = items.length) :
    (List.zipWith place items positions).map label = items.map image := by
  apply List.ext_getElem
  · simp [enough]
  · intro index _ _
    simp [labelled]

theorem map_position_zipWith {α : Type} {place : α → Position → Node}
    (placed : ∀ item position, (place item position).position = position)
    {items : List α} {positions : List Position} (enough : positions.length = items.length) :
    (List.zipWith place items positions).map Node.position = positions := by
  apply List.ext_getElem
  · simp [enough]
  · intro index _ _
    simp [placed]

/-! ## Grids -/

/-- Two positions are the same place, whatever the kind of their numbers. -/
def Position.Meets (left right : Position) : Prop :=
  left.x.key = right.x.key ∧ left.y.key = right.y.key

/-- An index is known by its remainder and its quotient, so that no cell is used twice. -/
theorem nodup_cells (count : Nat) : (cells count).Nodup := by
  rw [cells, List.Nodup, List.pairwise_map]
  apply List.nodup_range.imp
  intro left right different same
  have sameColumn : left % ceilSqrt count = right % ceilSqrt count := congrArg Prod.fst same
  have sameRow : left / ceilSqrt count = right / ceilSqrt count := congrArg Prod.snd same
  apply different
  rw [← Nat.div_add_mod left (ceilSqrt count), sameRow, sameColumn, Nat.div_add_mod]

theorem eq_of_spaced {start spacing : Int} (apart : spacing ≠ 0) {left right : Nat}
    (same : start + left * spacing = start + right * spacing) : left = right :=
  Int.ofNat.inj (Int.eq_of_mul_eq_mul_right apart (Int.add_left_cancel same))

theorem pairwise_wholeGrid (count : Nat) (startX startY : Int) {spacing : Int}
    (apart : spacing ≠ 0) :
    (wholeGrid count startX startY spacing).Pairwise fun left right => ¬ left.Meets right := by
  rw [wholeGrid, List.pairwise_map]
  apply (nodup_cells count).imp
  intro left right different meets
  obtain ⟨sameX, sameY⟩ := meets
  simp only [Number.key_int, Number.Key.ratio.injEq, and_true] at sameX sameY
  exact different (Prod.ext (eq_of_spaced apart sameX) (eq_of_spaced apart sameY))

/-- A grid extends to the right of its first position. -/
theorem exists_x_of_mem_wholeGrid {count : Nat} {startX startY spacing : Int}
    (rightward : 0 ≤ spacing) {position : Position}
    (onGrid : position ∈ wholeGrid count startX startY spacing) :
    ∃ x, position.x = .int x ∧ startX ≤ x := by
  obtain ⟨cell, -, rfl⟩ := List.mem_map.1 onGrid
  refine ⟨_, rfl, ?_⟩
  have beyond : 0 ≤ (cell.1 : Int) * spacing := Int.mul_nonneg (Int.natCast_nonneg _) rightward
  omega

end Diagram

end ImportAtlas
