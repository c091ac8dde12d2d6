import ImportAtlas.Fault

/-!
# Numbers of the data format

A number written without a point is an integer of any size, one with a point is a double.
The two kinds are told apart in every answer, so arithmetic keeps the kind: integers stay
integers and anything that meets a double becomes a double, which an integer can be too large for.
-/

namespace ImportAtlas

/-- The exact value of a double: sign, mantissa and a power of two. -/
inductive Binary64 where
  | finite (negative : Bool) (mantissa : Nat) (exponent : Int)
  | infinite (negative : Bool)
  | undefined
  deriving DecidableEq

namespace Binary64

/-- Read the three fields of the binary representation. An exponent field of zero marks a
number without the implicit leading bit. -/
def ofFloat (value : Float) : Binary64 :=
  let bits := value.toBits.toNat
  let negative := bits / Nat.pow 2 63 % 2 == 1
  let exponent : Nat := bits / Nat.pow 2 52 % Nat.pow 2 11
  let fraction : Nat := bits % Nat.pow 2 52
  if exponent == 2047 then
    if fraction == 0 then .infinite negative else .undefined
  else if exponent == 0 then .finite negative fraction (-1074)
  else .finite negative (Nat.pow 2 52 + fraction) ((exponent : Int) - 1075)

end Binary64

/-- An integer or a double. -/
inductive Number where
  | int (value : Int)
  | float (value : Float)
  deriving DecidableEq, Inhabited

namespace Number

/-- What decides whether two numbers are equal: their exact value, whatever their kind.
A finite value is a quotient by a power of two in lowest terms. -/
inductive Key where
  | ratio (numerator : Int) (halvings : Nat)
  | infinite (negative : Bool)
  | undefined
  deriving DecidableEq

/-- Cancel common factors of two between a numerator and `2 ^ halvings`. -/
def Key.lowest (numerator : Int) : Nat → Key
  | 0 => .ratio numerator 0
  | halvings + 1 =>
      if numerator % 2 = 0 then lowest (numerator / 2) halvings
      else .ratio numerator (halvings + 1)

/-- The exact value of a number. Both zeros of the doubles are the integer zero. -/
def key : Number → Key
  | .int value => .ratio value 0
  | .float value =>
      match Binary64.ofFloat value with
      | .finite negative mantissa exponent =>
          let signed : Int := if negative then -(mantissa : Int) else mantissa
          match exponent with
          | .ofNat doublings => .ratio (signed * Int.pow 2 doublings) 0
          | .negSucc halvings => Key.lowest signed (halvings + 1)
      | .infinite negative => .infinite negative
      | .undefined => .undefined

/-- The least integer that is too large for a double: beyond it rounding leaves the range. -/
def floatBound : Nat := Nat.pow 2 1024 - Nat.pow 2 970

/-- The nearest double, if the number is in the range of doubles. -/
def toFloat : Number → Except Fault Float
  | .int value => if value.natAbs < floatBound then .ok (Float.ofInt value) else .error .overflow
  | .float value => .ok value

/-- Sum of two numbers, an integer if both are. -/
def add : Number → Number → Except Fault Number
  | .int left, .int right => .ok (.int (left + right))
  | left, right => do return .float ((← left.toFloat) + (← right.toFloat))

/-- A number taken a number of times. -/
def times (count : Nat) : Number → Number
  | .int value => .int (count * value)
  | .float value => .float (Float.ofNat count * value)

instance (value : Nat) : OfNat Number value := ⟨.int value⟩

/-- Zero of either kind. -/
def isZero (number : Number) : Bool := number.key == .ratio 0 0

@[simp] theorem key_int (value : Int) : key (.int value) = .ratio value 0 := rfl

@[simp] theorem int_add_int (left right : Int) :
    add (.int left) (.int right) = .ok (.int (left + right)) := rfl

end Number

end ImportAtlas
