/-!
# Texts

A text is a list of code points. Besides characters it may hold halves of surrogate pairs that
stand alone: an escape in JSON can name one, and names are made from whatever the data holds.
Such a half compares and sorts like any other code point but has no encoding, so a text that
holds one cannot be printed.
-/

namespace ImportAtlas

/-- A character, or half of a surrogate pair without its other half. -/
inductive CodePoint where
  | char (value : Char)
  | half (offset : Fin 2048)
  deriving DecidableEq, Inhabited, Repr

namespace CodePoint

instance : Coe Char CodePoint := ⟨.char⟩

/-- Where the halves of surrogate pairs begin. -/
def firstHalf : Nat := 0xd800

/-- The halves that come second in a pair begin here. -/
def firstLowHalf : Nat := 0xdc00

/-- Where characters go on behind the halves. -/
def behindHalves : Nat := 0xe000

def toNat : CodePoint → Nat
  | .char value => value.toNat
  | .half offset => firstHalf + offset

/-- The code point of a number below `0x110000`. -/
def ofNat (code : Nat) : CodePoint :=
  if inHalves : firstHalf ≤ code ∧ code < behindHalves then
    .half ⟨code - firstHalf, by simp only [firstHalf, behindHalves] at inHalves ⊢; omega⟩
  else .char (Char.ofNat code)

/-- A half that comes first in a pair. -/
def isHighHalf (point : CodePoint) : Bool :=
  firstHalf ≤ point.toNat && point.toNat < firstLowHalf

/-- A half that comes second in a pair. -/
def isLowHalf (point : CodePoint) : Bool :=
  firstLowHalf ≤ point.toNat && point.toNat < behindHalves

/-- The character that two halves form. -/
def ofHalves (high low : CodePoint) : CodePoint :=
  .ofNat (0x10000 + (high.toNat - firstHalf) * 0x400 + (low.toNat - firstLowHalf))

def char? : CodePoint → Option Char
  | .char value => some value
  | .half _ => none

/-- A property of characters that no half has. -/
def satisfies (property : Char → Bool) : CodePoint → Bool
  | .char value => property value
  | .half _ => false

def isDigit (point : CodePoint) : Bool := point.satisfies Char.isDigit

/-- The value of a hexadecimal digit. -/
def hexValue? (point : CodePoint) : Option Nat :=
  let code := point.toNat
  if 0x30 ≤ code && code ≤ 0x39 then some (code - 0x30)
  else if 0x61 ≤ code && code ≤ 0x66 then some (code - 0x61 + 10)
  else if 0x41 ≤ code && code ≤ 0x46 then some (code - 0x41 + 10)
  else none

/-- Order by number. -/
def le (left right : CodePoint) : Bool := left.toNat ≤ right.toNat

end CodePoint

/-- A list of code points. -/
abbrev Text := List CodePoint

namespace Text

/-- The code points of a string. -/
def ofString (value : String) : Text := value.toList.map .char

instance : Coe String Text := ⟨ofString⟩

/-- Decimal digits of an integer. -/
def ofInt (value : Int) : Text := ofString (toString value)

/-- Decimal digits of a natural. -/
def ofNat (value : Nat) : Text := ofString (toString value)

/-- The string with the same code points, if none of them is a half. -/
def toString? (text : Text) : Option String := (text.mapM CodePoint.char?).map String.ofList

/-- Whether a text holds a half, so that it has no encoding. -/
def isBroken (text : Text) : Bool := text.any fun point => point.char?.isNone

/-- Order of texts by their code points, the shorter first if it begins the longer. -/
def le : Text → Text → Bool
  | [], _ => true
  | _ :: _, [] => false
  | left :: lefts, right :: rights =>
      if left = right then le lefts rights else left.le right

/-- Texts in order. -/
def sorted (texts : List Text) : List Text := texts.mergeSort le

/-- Lower-case letters for the ASCII capitals. -/
def lowered (text : Text) : Text :=
  text.map fun
    | .char value => .char value.toLower
    | half => half

@[simp] theorem ofString_empty : ofString "" = [] := rfl

theorem isBroken_append (left right : Text) :
    isBroken (left ++ right) = (isBroken left || isBroken right) := by
  simp [isBroken]

theorem isBroken_ofString (value : String) : isBroken (ofString value) = false := by
  simp [isBroken, ofString, CodePoint.char?]

end Text

end ImportAtlas
