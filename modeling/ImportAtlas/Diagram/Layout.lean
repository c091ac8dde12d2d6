import ImportAtlas.Diagram
import ImportAtlas.Text.Segment

/-!
# Where nodes are placed

Nodes stand evenly on a circle, or row by row on a grid that is about as wide as it is high.
-/

namespace ImportAtlas.Diagram

/-- The ratio of a circle's circumference to its diameter. -/
def pi : Float := 3.141592653589793

/-- How many nodes are to be placed: none if the number is negative. A number that is too large
for a double cannot divide a circle. -/
def nodeCount (count : Int) : Except Fault Nat := do
  let _ ← Number.toFloat (.int count.toNat)
  return count.toNat

/-- Positions on a circle given in doubles: node `i` of `n` stands at the angle `i * (2π / n)`. -/
def onCircle (count : Nat) (centerX centerY radius : Float) : List Position :=
  let step := 2 * pi / Float.ofNat count
  (List.range count).map fun index =>
    let angle := Float.ofNat index * step
    ⟨.float (centerX + radius * angle.cos), .float (centerY + radius * angle.sin)⟩

/-- Positions on a circle. Every coordinate is a double, so that where there is a node, numbers
that are too large for a double are refused. -/
def circle (count : Nat) (centerX centerY radius : Number) : Except Fault (List Position) :=
  if count = 0 then .ok []
  else do
    return onCircle count (← centerX.toFloat) (← centerY.toFloat) (← radius.toFloat)

/-- Least number whose square is at least `value`, searched upward from `start`. -/
def ceilSqrtFrom (value start : Nat) : Nat → Nat
  | 0 => start
  | steps + 1 => if value ≤ start * start then start else ceilSqrtFrom value (start + 1) steps

/-- Square root rounded up. -/
def ceilSqrt (value : Nat) : Nat := ceilSqrtFrom value 0 value

/-- Column and row of each node on a grid. -/
def cells (count : Nat) : List (Nat × Nat) :=
  let columns := ceilSqrt count
  (List.range count).map fun index => (index % columns, index / columns)

/-- Positions on a grid, row by row. -/
def grid (count : Nat) (startX startY spacing : Number) : Except Fault (List Position) :=
  (cells count).mapM fun (column, row) => do
    return ⟨← startX.add (spacing.times column), ← startY.add (spacing.times row)⟩

/-- Positions on a grid of whole numbers. -/
def wholeGrid (count : Nat) (startX startY spacing : Int) : List Position :=
  (cells count).map fun (column, row) =>
    ⟨.int (startX + column * spacing), .int (startY + row * spacing)⟩

/-- The extension of a file, if its last part has a dot. -/
def fileType? (path : Text) : Option Text :=
  if path = [] || !(Text.lastSegment '/' path).contains '.' then none
  else some (Text.lastSegment '.' path)

end ImportAtlas.Diagram
