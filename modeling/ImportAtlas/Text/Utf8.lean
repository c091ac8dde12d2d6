import ImportAtlas.Text

/-!
# Bytes in UTF-8

Bytes are cut into characters and strays. A stray begins a character that its bytes do not
finish, or cannot begin one at all. It ends before the first byte that rules its character out,
so every byte lies in exactly one piece.
-/

namespace ImportAtlas.Utf8

/-- A character, or bytes that form none. -/
inductive Piece where
  | char (value : Char)
  | stray (bytes : List UInt8)
  deriving DecidableEq, Repr

/-- The beginning of a character: its bytes so far, the number that they form, how many bytes
are still owed, and the bounds of the next one. -/
structure Beginning where
  bytes : List UInt8
  code : Nat
  owed : Nat
  low : UInt8 := 0x80
  high : UInt8 := 0xbf
  deriving DecidableEq, Repr

/-- Look at a byte between two pieces. The bounds of the byte after it leave out what has a
shorter form, surrogates, and numbers beyond the last code point. -/
def start (byte : UInt8) : List Piece × Option Beginning :=
  if byte < 0x80 then ([.char (Char.ofNat byte.toNat)], none)
  else if byte < 0xc2 || byte > 0xf4 then ([.stray [byte]], none)
  else if byte < 0xe0 then
    ([], some { bytes := [byte], code := byte.toNat - 0xc0, owed := 1 })
  else if byte < 0xf0 then
    ([], some {
      bytes := [byte], code := byte.toNat - 0xe0, owed := 2
      low := if byte = 0xe0 then 0xa0 else 0x80
      high := if byte = 0xed then 0x9f else 0xbf })
  else
    ([], some {
      bytes := [byte], code := byte.toNat - 0xf0, owed := 3
      low := if byte = 0xf0 then 0x90 else 0x80
      high := if byte = 0xf4 then 0x8f else 0xbf })

/-- Look at the byte after a beginning. -/
def Beginning.follow (beginning : Beginning) (byte : UInt8) : List Piece × Option Beginning :=
  if byte < beginning.low || beginning.high < byte then
    let (pieces, next) := start byte
    (.stray beginning.bytes :: pieces, next)
  else
    let code := 64 * beginning.code + (byte.toNat - 0x80)
    if beginning.owed = 1 then ([.char (Char.ofNat code)], none)
    else ([], some { bytes := beginning.bytes ++ [byte], code, owed := beginning.owed - 1 })

/-- Cut bytes that come after a beginning. -/
def cutFrom (beginning : Option Beginning) : List UInt8 → List Piece
  | [] => (beginning.map fun begun => .stray begun.bytes).toList
  | byte :: bytes =>
      let (pieces, next) :=
        match beginning with
        | none => start byte
        | some begun => begun.follow byte
      pieces ++ cutFrom next bytes

/-- The pieces of some bytes. -/
def cut (bytes : List UInt8) : List Piece := cutFrom none bytes

end ImportAtlas.Utf8
