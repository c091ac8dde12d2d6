import ImportAtlas.Fault
import ImportAtlas.Json.Reader

/-!
# Bodies of requests

A body is a JSON text in UTF-8, UTF-16 or UTF-32. Which of them, and in which order of bytes, shows
in where its first bytes are zero, because a JSON text begins with an ASCII character. Halves of
surrogate pairs may stand alone.
-/

namespace ImportAtlas.Service

/-- How a text is put into bytes. -/
inductive Encoding where
  | utf8
  | utf16 (bigEndian : Bool)
  | utf32 (bigEndian : Bool)
  deriving DecidableEq, Repr

namespace Encoding

/-- The encoding that the first bytes show. -/
def detect : List UInt8 → Encoding
  | first :: second :: third :: fourth :: _ =>
      if first = 0 then if second = 0 then .utf32 true else .utf16 true
      else if second = 0 then if third = 0 && fourth = 0 then .utf32 false else .utf16 false
      else .utf8
  | [first, second] =>
      if first = 0 then .utf16 true else if second = 0 then .utf16 false else .utf8
  | _ => .utf8

/-- The number that some bytes form. -/
def unit (bigEndian : Bool) (bytes : List UInt8) : Nat :=
  (if bigEndian then bytes else bytes.reverse).foldl (fun value byte => 256 * value + byte.toNat) 0

/-- Units of two bytes, if no byte is left over. -/
def pairs? (bigEndian : Bool) : List UInt8 → Option (List Nat)
  | [] => some []
  | first :: second :: rest => do
      return unit bigEndian [first, second] :: (← pairs? bigEndian rest)
  | _ => none

/-- Units of four bytes, if no byte is left over. -/
def quadruples? (bigEndian : Bool) : List UInt8 → Option (List Nat)
  | [] => some []
  | first :: second :: third :: fourth :: rest => do
      return unit bigEndian [first, second, third, fourth] :: (← quadruples? bigEndian rest)
  | _ => none

/-- Join each high half with a low half that follows it. -/
def joinHalves : Text → Text
  | high :: low :: rest =>
      if high.isHighHalf && low.isLowHalf then CodePoint.ofHalves high low :: joinHalves rest
      else high :: joinHalves (low :: rest)
  | text => text

/-- The code point of a number, if there is one. -/
def point? (code : Nat) : Option CodePoint :=
  if code < 0x110000 then some (.ofNat code) else none

/-- The byte order mark, which a text in UTF-8 may begin with. -/
def byteOrderMark : CodePoint := '\ufeff'

/-- Drop one byte order mark. -/
def dropMark : Text → Text
  | [] => []
  | first :: rest => if first = byteOrderMark then rest else first :: rest

/-- The text that some bytes encode. -/
def decode? (bytes : ByteArray) : Encoding → Option Text
  | .utf8 => (String.fromUTF8? bytes).map fun text => dropMark text
  | .utf16 bigEndian => (pairs? bigEndian bytes.toList).map fun units =>
      joinHalves (units.map .ofNat)
  | .utf32 bigEndian => do (← quadruples? bigEndian bytes.toList).mapM point?

end Encoding

/-- What a request brings along. -/
inductive Body where
  | absent
  /-- A text that is not JSON. -/
  | malformed
  /-- Bytes that are no text, or JSON that is not read because of its size. -/
  | unreadable
  | json (value : Json)

namespace Body

/-- Read the bytes of a body, whose value is nested at most as deep as given. -/
def ofBytes (deepest : Nat) (bytes : ByteArray) : Body :=
  if bytes.isEmpty then .absent
  else
    match (Encoding.detect bytes.toList).decode? bytes with
    | none => .unreadable
    | some text =>
        match Json.parse deepest text with
        | .ok value => .json value
        | .error .malformed => .malformed
        | .error _ => .unreadable

end Body

end ImportAtlas.Service
