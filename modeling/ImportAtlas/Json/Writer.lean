import ImportAtlas.Json
import ImportAtlas.Number.Shortest
import ImportAtlas.Text.Quoted

/-!
# Writing JSON

A style says how values are laid out: on one line or indented, with characters beyond ASCII as
they are or as escapes. Doubles are written in their shortest form, and halves of surrogate pairs
as escapes.
-/

namespace ImportAtlas.Json

/-- How a value is laid out. -/
structure Style where
  /-- Spaces per level of nesting; nothing puts everything on one line. -/
  indent : Option Nat
  /-- Write every character beyond ASCII as an escape. -/
  asciiOnly : Bool

namespace Style

/-- The layout of reports: two spaces per level and plain ASCII. -/
def report : Style := { indent := some 2, asciiOnly := true }

/-- The layout of messages: one line, characters as they are. -/
def message : Style := { indent := none, asciiOnly := false }

end Style

/-- Escapes of a code point, a surrogate pair beyond the basic plane. -/
def unicodeEscape (code : Nat) : List Char :=
  if code < 0x10000 then '\\' :: 'u' :: Text.hexDigits 4 code
  else
    let offset := code - 0x10000
    '\\' :: 'u' :: Text.hexDigits 4 (0xd800 + offset / 0x400) ++
      '\\' :: 'u' :: Text.hexDigits 4 (0xdc00 + offset % 0x400)

/-- One character inside a string. Controls are always escaped. -/
def escapeCharacter (asciiOnly : Bool) (character : Char) : List Char :=
  match character with
  | '"' => ['\\', '"']
  | '\\' => ['\\', '\\']
  | '\n' => ['\\', 'n']
  | '\r' => ['\\', 'r']
  | '\t' => ['\\', 't']
  | '\x0c' => ['\\', 'f']
  | '\x08' => ['\\', 'b']
  | _ =>
      let code := character.toNat
      if code < 0x20 || (asciiOnly && code > 0x7e) then unicodeEscape code
      else [character]

/-- One code point inside a string. -/
def escapePoint (asciiOnly : Bool) : CodePoint → List Char
  | .char character => escapeCharacter asciiOnly character
  | .half offset => unicodeEscape (CodePoint.half offset).toNat

/-- A text as a JSON string. -/
def quote (asciiOnly : Bool) (value : Text) : String :=
  "\"" ++ String.ofList (value.flatMap (escapePoint asciiOnly)) ++ "\""

/-- A number: an integer in decimal, a double in its shortest form or by its name. -/
def numberText : Number → String
  | .int value => toString value
  | .float value =>
      if value.isNaN then "NaN"
      else if value.isInf then if value < 0 then "-Infinity" else "Infinity"
      else Number.shortestText value

/-- Text of a scalar. -/
def atomText (asciiOnly : Bool) : Atom → String
  | .null => "null"
  | .bool value => if value then "true" else "false"
  | .num value => numberText value
  | .text value => quote asciiOnly value

/-- Put the parts of a container between its marks, each on a line of its own if indented. -/
def enclose (style : Style) (depth : Nat) (left right : String) (parts : List String) : String :=
  match parts, style.indent with
  | [], _ => left ++ right
  | parts, none => left ++ ",".intercalate parts ++ right
  | parts, some width =>
      let margin (level : Nat) := "\n" ++ String.ofList (List.replicate (width * level) ' ')
      left ++ margin (depth + 1) ++ ("," ++ margin (depth + 1)).intercalate parts ++
        margin depth ++ right

mutual

/-- Text of a value at a depth of nesting. -/
def renderAt (style : Style) (depth : Nat) : Json → String
  | .atom value => atomText style.asciiOnly value
  | .arr items => enclose style depth "[" "]" (renderItems style (depth + 1) items)
  | .obj fields => enclose style depth "\x7b" "\x7d" (renderFields style (depth + 1) fields)

def renderItems (style : Style) (depth : Nat) : List Json → List String
  | [] => []
  | item :: items => renderAt style depth item :: renderItems style depth items

def renderFields (style : Style) (depth : Nat) : List (Text × Json) → List String
  | [] => []
  | (name, value) :: fields =>
      (quote style.asciiOnly name ++ (if style.indent.isSome then ": " else ":") ++
        renderAt style depth value) :: renderFields style depth fields

end

/-- Text of a value. -/
def render (style : Style) (value : Json) : String := renderAt style 0 value

/-- A scalar as the name of a field. A text names itself. -/
def fieldName : Atom → Text
  | .text value => value
  | .null => "null"
  | .bool value => if value then "true" else "false"
  | .num value => numberText value

end ImportAtlas.Json
