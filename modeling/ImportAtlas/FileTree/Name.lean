import ImportAtlas.Text.Utf8

/-!
# Names of files

A file system knows names by their bytes. In a text, some halves of surrogate pairs stand for
bytes that form no character. If such bytes do form one, the text names the same file as the text
with that character.
-/

namespace ImportAtlas.FileName

/-- The half that stands for the byte zero; only those of bytes beyond ASCII are used. -/
def firstByteHalf : Nat := 0xdc00

/-- Halves that stand for a byte. -/
def standsForByte (point : CodePoint) : Bool :=
  firstByteHalf + 0x80 ≤ point.toNat && point.toNat ≤ firstByteHalf + 0xff

/-- Bytes of a code point in a name. -/
def bytesOf : CodePoint → List UInt8
  | .char value => String.utf8EncodeChar value
  | half => [UInt8.ofNat (half.toNat - firstByteHalf)]

/-- Bytes of a name or a path. -/
def bytes (name : Text) : List UInt8 := name.flatMap bytesOf

/-- A name has at most this many bytes. -/
def longest : Nat := 255

def isTooLong (name : Text) : Bool := (bytes name).length > longest

/-- The half that stands for a byte. -/
def halfOf (byte : UInt8) : CodePoint := .ofNat (firstByteHalf + byte.toNat)

/-- A piece of a name, with halves for its bytes if they form no character. -/
def keepBytes : Utf8.Piece → Text
  | .char value => [.char value]
  | .stray bytes => bytes.map halfOf

/-- A piece of a name, with a replacement character for bytes that form no character. -/
def replaceBytes : Utf8.Piece → Text
  | .char value => [.char value]
  | .stray _ => "\ufffd"

/-- The one text that a file system has for a name. A name without halves is that text. -/
def canonical (name : Text) : Text :=
  if name.isBroken then (Utf8.cut (bytes name)).flatMap keepBytes else name

/-- A name or a path as messages show it. -/
def shown (name : Text) : Text := (Utf8.cut (bytes name)).flatMap replaceBytes

end ImportAtlas.FileName
