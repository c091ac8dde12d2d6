import ImportAtlas.Number

/-!
# Shortest decimal text of a double

The fewest digits that still read back as the same double, and among those the decimal nearest
to it. Positional notation is used for exponents from -4 to 15, scientific notation elsewhere.
-/

namespace ImportAtlas.Number

/-- Nearest natural to `numerator / denominator`, a half to the even neighbour. -/
def roundHalfEven (numerator denominator : Nat) : Nat :=
  let quotient := numerator / denominator
  let twice := 2 * (numerator % denominator)
  if twice < denominator then quotient
  else if denominator < twice then quotient + 1
  else if quotient % 2 = 0 then quotient else quotient + 1

/-- Decimal digits of a natural, padded with zeros on the left to a width. -/
def paddedDigits (width value : Nat) : String :=
  let digits := Nat.toDigits 10 value
  String.ofList (List.replicate (width - digits.length) '0' ++ digits)

/-- A decimal `digits * 10 ^ exponent`. -/
structure Decimal where
  digits : Nat
  exponent : Int
  deriving DecidableEq

/-- A positive rational as numerator and denominator. -/
structure Ratio where
  numerator : Nat
  denominator : Nat

namespace Ratio

/-- `mantissa * base ^ exponent` for an exponent of either sign. -/
def scale (mantissa base : Nat) : Int → Ratio
  | .ofNat exponent => ⟨mantissa * Nat.pow base exponent, 1⟩
  | .negSucc exponent => ⟨mantissa, Nat.pow base (exponent + 1)⟩

def lt (left right : Ratio) : Bool :=
  left.numerator * right.denominator < right.numerator * left.denominator

def le (left right : Ratio) : Bool := !right.lt left

/-- Largest exponent of ten that does not exceed the value, for a positive value. Searched
upward from a bound below every double. -/
def decimalExponent (value : Ratio) (start : Int) : Nat → Int
  | 0 => start
  | steps + 1 =>
      if (scale 1 10 (start + 1)).le value then decimalExponent value (start + 1) steps
      else start

end Ratio

/-- The reals that round to a double `mantissa * 2 ^ exponent`, ends included exactly if the
mantissa is even. All three bounds are given in quarters of the last place. -/
structure Interval where
  low : Ratio
  middle : Ratio
  high : Ratio
  closed : Bool

/-- The interval of a positive finite double. Below a power of two the gap is half as wide. -/
def Interval.of (mantissa : Nat) (exponent : Int) : Interval :=
  let below := if mantissa == Nat.pow 2 52 && exponent > -1074 then 1 else 2
  { low := .scale (4 * mantissa - below) 2 (exponent - 2)
    middle := .scale (4 * mantissa) 2 (exponent - 2)
    high := .scale (4 * mantissa + 2) 2 (exponent - 2)
    closed := mantissa % 2 == 0 }

def Interval.contains (interval : Interval) (value : Ratio) : Bool :=
  if interval.closed then interval.low.le value && value.le interval.high
  else interval.low.lt value && value.lt interval.high

/-- The neighbours of the value on the grid of multiples of `10 ^ exponent` that read back, the
nearer first. A tie goes to the even digit. -/
def Interval.onGrid? (interval : Interval) (exponent : Int) : Option Decimal :=
  let value := interval.middle
  let scaled : Ratio :=
    match exponent with
    | .ofNat e => ⟨value.numerator, value.denominator * Nat.pow 10 e⟩
    | .negSucc e => ⟨value.numerator * Nat.pow 10 (e + 1), value.denominator⟩
  let lower := scaled.numerator / scaled.denominator
  let nearest := roundHalfEven scaled.numerator scaled.denominator
  let other := if nearest == lower then lower + 1 else lower
  if nearest != 0 && interval.contains (.scale nearest 10 exponent) then
    some ⟨nearest, exponent⟩
  else if other != 0 && interval.contains (.scale other 10 exponent) then
    some ⟨other, exponent⟩
  else none

/-- Refine the grid digit by digit until a point of it reads back. Seventeen digits always do. -/
def Interval.shortest (interval : Interval) (leading : Int) : Nat → Decimal
  | 0 => ⟨roundHalfEven interval.middle.numerator interval.middle.denominator, 0⟩
  | remaining + 1 =>
      match interval.onGrid? (leading - (16 - remaining : Nat)) with
      | some decimal => decimal
      | none => shortest interval leading remaining

/-- Fewest digits that read back as the positive double `mantissa * 2 ^ exponent`. -/
def shortestDecimal (mantissa : Nat) (exponent : Int) : Decimal :=
  let interval := Interval.of mantissa exponent
  interval.shortest (interval.middle.decimalExponent (-330) 660) 17

/-- Drop zeros at the end of a digit sequence. -/
def dropTrailingZeros (digits : List Char) : List Char :=
  (digits.reverse.dropWhile (· == '0')).reverse

/-- Lay digits out with the decimal point after `point` of them. -/
def positional (digits : List Char) (point : Int) : List Char :=
  match point with
  | .ofNat 0 => '0' :: '.' :: digits
  | .ofNat whole =>
      let padded := digits ++ List.replicate (whole - digits.length) '0'
      let rest := padded.drop whole
      padded.take whole ++ '.' :: (if rest.isEmpty then ['0'] else rest)
  | .negSucc zeros => '0' :: '.' :: (List.replicate (zeros + 1) '0' ++ digits)

/-- One digit before the point, and an exponent with a sign and at least two digits. -/
def scientific (digits : List Char) (exponent : Int) : List Char :=
  let rest := digits.drop 1
  let sign := if exponent < 0 then '-' else '+'
  digits.take 1 ++ (if rest.isEmpty then [] else '.' :: rest) ++
    'e' :: sign :: (paddedDigits 2 exponent.natAbs).toList

/-- Shortest text of a double. Whole values keep one zero after the point. -/
def shortestText (value : Float) : String :=
  match Binary64.ofFloat value with
  | .undefined => "nan"
  | .infinite negative => if negative then "-inf" else "inf"
  | .finite negative mantissa exponent =>
      let sign := if negative then "-" else ""
      if mantissa == 0 then sign ++ "0.0"
      else
        let decimal := shortestDecimal mantissa exponent
        let all := Nat.toDigits 10 decimal.digits
        let point : Int := decimal.exponent + all.length
        let digits := dropTrailingZeros all
        if -4 < point && point ≤ 16 then sign ++ String.ofList (positional digits point)
        else sign ++ String.ofList (scientific digits (point - 1))

/-- Text of a number: an integer in decimal, a double in its shortest form. -/
def text : Number → String
  | .int value => toString value
  | .float value => shortestText value

end ImportAtlas.Number
