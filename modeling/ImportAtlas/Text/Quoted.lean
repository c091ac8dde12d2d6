import ImportAtlas.Text.Printable

/-!
# Quoted text

A text inside a list or an object is shown between quotes. Single quotes are used unless the
text holds one and no double quote. Code points without a printed form are written as escapes.
-/

namespace ImportAtlas.Text

/-- Lower-case hexadecimal digits of a natural, padded with zeros to a width. -/
def hexDigits (width value : Nat) : List Char :=
  let digits := Nat.toDigits 16 value
  List.replicate (width - digits.length) '0' ++ digits

/-- An escape of the shortest form that holds the code point. -/
def numericEscape (point : CodePoint) : Text :=
  let code := point.toNat
  let escape :=
    if code < 0x100 then '\\' :: 'x' :: hexDigits 2 code
    else if code < 0x10000 then '\\' :: 'u' :: hexDigits 4 code
    else '\\' :: 'U' :: hexDigits 8 code
  escape.map .char

/-- One code point as it stands between the given quotes. -/
def quotePoint (quote point : CodePoint) : Text :=
  if point = quote || point = '\\' then ['\\', point]
  else if point = '\n' then ['\\', 'n']
  else if point = '\r' then ['\\', 'r']
  else if point = '\t' then ['\\', 't']
  else if isPrintable point then [point]
  else numericEscape point

/-- The quote that a text is put between. -/
def quoteFor (text : Text) : CodePoint :=
  if text.contains '\'' && !text.contains '"' then '"' else '\''

/-- A text between quotes, with escapes where needed. -/
def quoted (text : Text) : Text :=
  let quote := quoteFor text
  quote :: (text.flatMap (quotePoint quote) ++ [quote])

/-- The string of a text, with escapes for the halves that have no encoding. -/
def withEscapes (text : Text) : String :=
  String.ofList (text.flatMap fun
    | .char value => [value]
    | .half offset => '\\' :: 'u' :: hexDigits 4 (CodePoint.half offset).toNat)

end ImportAtlas.Text
