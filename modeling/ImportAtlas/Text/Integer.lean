import ImportAtlas.Text.Blank

/-!
# Integers in text

An integer may have blanks around it, a sign in front and single underscores between its digits.
The digits may be of any script; each script has its ten digits in a row. There are at most 4300.
-/

namespace ImportAtlas.Text

/-- Code points of the digit zero in every script. -/
def zeros : List Nat :=
  [0x30, 0x660, 0x6f0, 0x7c0, 0x966, 0x9e6, 0xa66, 0xae6, 0xb66, 0xbe6, 0xc66, 0xce6, 0xd66,
   0xde6, 0xe50, 0xed0, 0xf20, 0x1040, 0x1090, 0x17e0, 0x1810, 0x1946, 0x19d0, 0x1a80, 0x1a90,
   0x1b50, 0x1bb0, 0x1c40, 0x1c50, 0xa620, 0xa8d0, 0xa900, 0xa9d0, 0xa9f0, 0xaa50, 0xabf0,
   0xff10, 0x104a0, 0x10d30, 0x11066, 0x110f0, 0x11136, 0x111d0, 0x112f0, 0x11450, 0x114d0,
   0x11650, 0x116c0, 0x11730, 0x118e0, 0x11950, 0x11c50, 0x11d50, 0x11da0, 0x16a60, 0x16ac0,
   0x16b50, 0x1d7ce, 0x1d7d8, 0x1d7e2, 0x1d7ec, 0x1d7f6, 0x1e140, 0x1e2f0, 0x1e950, 0x1fbf0]

/-- Value of a decimal digit. -/
def digitValue? (point : CodePoint) : Option Nat :=
  (zeros.find? fun start => start ≤ point.toNat && point.toNat < start + 10).map
    fun start => point.toNat - start

/-- Digits that follow other digits. An underscore stands between two digits. -/
def moreDigits? : Text → Option (List Nat)
  | [] => some []
  | .char '_' :: point :: rest => do
      let digit ← digitValue? point
      return digit :: (← moreDigits? rest)
  | point :: rest => do
      let digit ← digitValue? point
      return digit :: (← moreDigits? rest)

/-- The digits of a number, at least one. -/
def digits? : Text → Option (List Nat)
  | [] => none
  | point :: rest => do
      let digit ← digitValue? point
      return digit :: (← moreDigits? rest)

/-- A number with more digits than this is not read. -/
def mostDigits : Nat := 4300

/-- The number that digits denote, the first of them the highest. -/
def valueOf (digits : List Nat) : Nat := digits.foldl (fun value digit => 10 * value + digit) 0

/-- The number that a text denotes. -/
def natural? (text : Text) : Option Nat := do
  let digits ← digits? text
  if digits.length ≤ mostDigits then some (valueOf digits) else none

/-- Blanks that may stand around a number. The information separators may not. -/
def isNumberBlank (point : CodePoint) : Bool :=
  isBlank point && !(0x1c ≤ point.toNat && point.toNat ≤ 0x1f)

/-- The integer that a text denotes. -/
def integer? (text : Text) : Option Int :=
  match trimWhile isNumberBlank text with
  | .char '-' :: digits => (natural? digits).map fun value => -(value : Int)
  | .char '+' :: digits => (natural? digits).map Int.ofNat
  | digits => (natural? digits).map Int.ofNat

end ImportAtlas.Text
