import ImportAtlas.Text

/-!
# Blank code points

What separates words: the controls from tab to carriage return, the four information
separators, and the separators of the Unicode standard. The zero-width space and the byte order
mark are not among them.
-/

namespace ImportAtlas.Text

/-- Inclusive ranges of code points that are blank. -/
def blankRanges : List (Nat × Nat) :=
  [(0x09, 0x0d), (0x1c, 0x20), (0x85, 0x85), (0xa0, 0xa0), (0x1680, 0x1680), (0x2000, 0x200a),
   (0x2028, 0x2029), (0x202f, 0x202f), (0x205f, 0x205f), (0x3000, 0x3000)]

def isBlank (point : CodePoint) : Bool :=
  blankRanges.any fun (low, high) => low ≤ point.toNat && point.toNat ≤ high

/-- Drop what satisfies a property at both ends. -/
def trimWhile (property : CodePoint → Bool) (text : Text) : Text :=
  ((text.dropWhile property).reverse.dropWhile property).reverse

/-- Drop blanks at both ends. -/
def trim (text : Text) : Text := trimWhile isBlank text

end ImportAtlas.Text
