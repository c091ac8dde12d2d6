import ImportAtlas.Json
import ImportAtlas.Text.Integer

/-!
# Reading JSON

A text is read once from left to right. Its code points are put together to tokens, and each
token goes at once to the value that is being built; the containers that are still open are kept
on a stack. So the first thing that is wrong decides how reading fails.

Besides the standard's numbers the words `NaN`, `Infinity` and `-Infinity` are read. A control
character inside a string is refused, and of repeated field names the last value counts. Half of
a surrogate pair may stand alone in a string.
-/

namespace ImportAtlas.Json

/-- Why a text cannot be read. -/
inductive ReadFault where
  | malformed
  | hugeInteger (digits : Nat)
  | tooDeep
  deriving DecidableEq, Repr

/-! ## Values under construction -/

/-- The smallest meaningful pieces of a JSON text. -/
inductive Token where
  | openList
  | closeList
  | openObject
  | closeObject
  | comma
  | colon
  | scalar (value : Atom)
  deriving DecidableEq

/-- A container that is still open, with what it holds so far; items are in reverse. -/
inductive OpenContainer where
  | list (items : List Json)
  | object (fields : List (Text × Json)) (name : Text)

/-- What may come next. -/
inductive Expected where
  | value
  | valueOrClose
  | name
  | nameOrClose
  | colon
  | commaOrClose
  | nothing
  deriving DecidableEq

/-- The open containers, innermost first, how many they are and may be, and what may come
next. -/
structure Builder where
  stack : List OpenContainer := []
  depth : Nat := 0
  bound : Nat
  expected : Expected := .value
  result : Json := .null

namespace Builder

/-- Hand a finished value to the innermost open container. -/
def finish (builder : Builder) (value : Json) : Builder :=
  match builder.stack with
  | [] => { builder with expected := .nothing, result := value }
  | .list items :: rest =>
      { builder with stack := .list (value :: items) :: rest, expected := .commaOrClose }
  | .object fields name :: rest =>
      { builder with
        stack := .object (setField name value fields) name :: rest, expected := .commaOrClose }

/-- Close the innermost container. -/
def close (builder : Builder) (token : Token) : Except ReadFault Builder :=
  match token, builder.stack with
  | .closeList, .list items :: rest =>
      .ok (finish { builder with stack := rest, depth := builder.depth - 1 } (.arr items.reverse))
  | .closeObject, .object fields _ :: rest =>
      .ok (finish { builder with stack := rest, depth := builder.depth - 1 } (.obj fields))
  | _, _ => .error .malformed

/-- Open a container. -/
def openContainer (builder : Builder) (container : OpenContainer) (expected : Expected) :
    Except ReadFault Builder :=
  if builder.depth < builder.bound then
    .ok { builder with
      stack := container :: builder.stack, depth := builder.depth + 1, expected }
  else .error .tooDeep

/-- Begin a value. -/
def begin (builder : Builder) : Token → Except ReadFault Builder
  | .openList => builder.openContainer (.list []) .valueOrClose
  | .openObject => builder.openContainer (.object [] []) .nameOrClose
  | .scalar value => .ok (builder.finish (.atom value))
  | _ => .error .malformed

/-- Take the name of the next field. -/
def takeName (builder : Builder) (token : Token) : Except ReadFault Builder :=
  match token, builder.stack with
  | .scalar (.text name), .object fields _ :: rest =>
      .ok { builder with stack := .object fields name :: rest, expected := .colon }
  | _, _ => .error .malformed

/-- After a comma a list goes on with a value and an object with a name. -/
def continueContainer (builder : Builder) : Except ReadFault Builder :=
  match builder.stack with
  | .list _ :: _ => .ok { builder with expected := .value }
  | .object _ _ :: _ => .ok { builder with expected := .name }
  | [] => .error .malformed

/-- Whether a scalar may come next. -/
def takesValue (builder : Builder) : Bool :=
  builder.expected = .value || builder.expected = .valueOrClose

/-- Take one token. -/
def take (builder : Builder) (token : Token) : Except ReadFault Builder :=
  match builder.expected with
  | .value => builder.begin token
  | .valueOrClose => if token = .closeList then builder.close token else builder.begin token
  | .name => builder.takeName token
  | .nameOrClose => if token = .closeObject then builder.close token else builder.takeName token
  | .colon => if token = .colon then .ok { builder with expected := .value } else .error .malformed
  | .commaOrClose =>
      if token = .comma then builder.continueContainer else builder.close token
  | .nothing => .error .malformed

end Builder

/-! ## Numbers and words -/

/-- Values of decimal digits. -/
def digitValues (digits : Text) : List Nat := digits.map fun digit => digit.toNat - '0'.toNat

/-- The parts of a number: sign, whole digits, digits after the point, and the exponent. -/
structure NumberParts where
  negative : Bool
  whole : Text
  fraction : Option Text
  exponent : Option (Bool × Text)

namespace NumberParts

/-- The digits that a text begins with, if any, and the rest. -/
def leadingDigits? (text : Text) : Option (Text × Text) :=
  match text.takeWhile CodePoint.isDigit with
  | [] => none
  | digits => some (digits, text.dropWhile CodePoint.isDigit)

/-- The whole digits that a text begins with. Behind a zero no digit follows. -/
def wholeDigits? : Text → Option (Text × Text)
  | .char '0' :: rest => some (['0'], rest)
  | text => leadingDigits? text

/-- A point and digits that a text begins with. -/
def fraction? : Text → Option (Text × Text)
  | .char '.' :: rest => leadingDigits? rest
  | _ => none

/-- An exponent that a text begins with, with its sign. -/
def exponent? : Text → Option ((Bool × Text) × Text)
  | mark :: rest =>
      if mark = 'e' || mark = 'E' then
        match rest with
        | .char '-' :: digits =>
            (leadingDigits? digits).map fun (digits, rest) => ((true, digits), rest)
        | .char '+' :: digits =>
            (leadingDigits? digits).map fun (digits, rest) => ((false, digits), rest)
        | digits => (leadingDigits? digits).map fun (digits, rest) => ((false, digits), rest)
      else none
  | [] => none

/-- The longest number that a word begins with, and the rest of the word. -/
def ofWord? (word : Text) : Option (NumberParts × Text) := do
  let (negative, word) :=
    match word with
    | .char '-' :: rest => (true, rest)
    | _ => (false, word)
  let (whole, rest) ← wholeDigits? word
  let (fraction, rest) :=
    match fraction? rest with
    | some (digits, rest) => (some digits, rest)
    | none => (none, rest)
  let (exponent, rest) :=
    match exponent? rest with
    | some (exponent, rest) => (some exponent, rest)
    | none => (none, rest)
  return ({ negative, whole, fraction, exponent }, rest)

/-- A number at or beyond this power of ten is out of range for every double, and so is one
below its reciprocal. -/
def rangeBound : Int := 400

/-- The double nearest to the number with the given digits and power of ten, zero or infinite
when out of range. -/
def nearestFloat (digits : List Nat) (power : Int) : Float :=
  let significant := digits.dropWhile (· = 0)
  if significant.isEmpty then 0.0
  else if power + significant.length > rangeBound then Float.ofScientific 1 false 400
  else if power + significant.length < -rangeBound then 0.0
  else
    match power with
    | .ofNat power => Float.ofScientific (Text.valueOf significant) false power
    | .negSucc power => Float.ofScientific (Text.valueOf significant) true (power + 1)

/-- The double that the parts denote. -/
def float (parts : NumberParts) : Float :=
  let fraction := parts.fraction.getD []
  let power : Int :=
    match parts.exponent with
    | none => 0
    | some (negative, digits) =>
        let magnitude : Int := Text.valueOf (digitValues digits)
        if negative then -magnitude else magnitude
  let magnitude := nearestFloat (digitValues (parts.whole ++ fraction)) (power - fraction.length)
  if parts.negative then -magnitude else magnitude

/-- The integer that the parts denote. -/
def integer (parts : NumberParts) : Int :=
  let magnitude : Int := Text.valueOf (digitValues parts.whole)
  if parts.negative then -magnitude else magnitude

/-- A number without point and exponent. -/
def isInteger (parts : NumberParts) : Bool := parts.fraction.isNone && parts.exponent.isNone

/-- The number that the parts denote. -/
def value (parts : NumberParts) : Number :=
  if parts.isInteger then .int parts.integer else .float parts.float

end NumberParts

/-- Words other than numbers. -/
def words : List (Text × Atom) :=
  [("null", .null), ("true", .bool true), ("false", .bool false),
   ("NaN", .num (.float (0.0 / 0.0))), ("Infinity", .num (.float (1.0 / 0.0))),
   ("-Infinity", .num (.float (-1.0 / 0.0)))]

/-- The scalar that a word outside quotes denotes. An integer that is too long is refused even
if something else follows it in the word. -/
def wordValue (word : Text) : Except ReadFault Atom :=
  match words.lookup word with
  | some value => .ok value
  | none =>
      match NumberParts.ofWord? word with
      | none => .error .malformed
      | some (parts, rest) =>
          if parts.isInteger && parts.whole.length > Text.mostDigits then
            .error (.hugeInteger parts.whole.length)
          else if rest = [] then .ok (.num parts.value)
          else .error .malformed

/-! ## Code points -/

/-- Where the reader stands between two code points. What has been collected is in reverse, and
`joins` tells that it begins with an escaped half whose other half may follow as an escape. -/
inductive Mode where
  | between
  | word (read : Text)
  | string (read : Text) (joins : Bool)
  | escape (read : Text) (joins : Bool)
  | unicode (read : Text) (joins : Bool) (digits : Nat) (value : Nat)

/-- The value under construction and the mode. -/
structure Reader where
  builder : Builder
  mode : Mode := .between

namespace Reader

/-- White space between tokens. -/
def isSpace (point : CodePoint) : Bool :=
  point = ' ' || point = '\t' || point = '\n' || point = '\r'

/-- A mark that is a token by itself. -/
def mark? : CodePoint → Option Token
  | .char '[' => some .openList
  | .char ']' => some .closeList
  | .char '\x7b' => some .openObject
  | .char '\x7d' => some .closeObject
  | .char ',' => some .comma
  | .char ':' => some .colon
  | _ => none

/-- The code point of a one-letter escape. -/
def shortEscape? : CodePoint → Option CodePoint
  | .char '"' => some '"'
  | .char '\\' => some '\\'
  | .char '/' => some '/'
  | .char 'b' => some '\x08'
  | .char 'f' => some '\x0c'
  | .char 'n' => some '\n'
  | .char 'r' => some '\r'
  | .char 't' => some '\t'
  | _ => none

/-- Close a word that ends here. It is looked at only where a value may stand. -/
def endWord (reader : Reader) : Except ReadFault Reader :=
  match reader.mode with
  | .word read =>
      if reader.builder.takesValue then do
        let value ← wordValue read.reverse
        return { builder := ← reader.builder.take (.scalar value) }
      else .error .malformed
  | _ => .ok reader

/-- Read a code point between tokens. -/
def stepBetween (reader : Reader) (point : CodePoint) : Except ReadFault Reader :=
  if isSpace point then .ok reader
  else if point = '"' then .ok { reader with mode := .string [] false }
  else
    match mark? point with
    | some token => do return { reader with builder := ← reader.builder.take token }
    | none => .ok { reader with mode := .word [point] }

/-- A word goes on until white space, a mark or a quote. -/
def endsWord (point : CodePoint) : Bool :=
  isSpace point || point = '"' || (mark? point).isSome

/-- Add an escaped code point. A low half joins the high half that was escaped just before. -/
def addEscaped (read : Text) (joins : Bool) (point : CodePoint) : Mode :=
  match joins && point.isLowHalf, read with
  | true, high :: rest => .string (CodePoint.ofHalves high point :: rest) false
  | _, _ => .string (point :: read) point.isHighHalf

/-- Read one code point. -/
def step (reader : Reader) (point : CodePoint) : Except ReadFault Reader :=
  match reader.mode with
  | .between => reader.stepBetween point
  | .word read =>
      if endsWord point then do (← reader.endWord).stepBetween point
      else .ok { reader with mode := .word (point :: read) }
  | .string read joins =>
      if point = '"' then do
        return { builder := ← reader.builder.take (.scalar (.text read.reverse)) }
      else if point = '\\' then .ok { reader with mode := .escape read joins }
      else if point.toNat < 0x20 then .error .malformed
      else .ok { reader with mode := .string (point :: read) false }
  | .escape read joins =>
      if point = 'u' then .ok { reader with mode := .unicode read joins 0 0 }
      else
        match shortEscape? point with
        | some escaped => .ok { reader with mode := .string (escaped :: read) false }
        | none => .error .malformed
  | .unicode read joins digits value =>
      match point.hexValue? with
      | none => .error .malformed
      | some digit =>
          let value := 16 * value + digit
          if digits = 3 then .ok { reader with mode := addEscaped read joins (.ofNat value) }
          else .ok { reader with mode := .unicode read joins (digits + 1) value }

/-- The value that has been read, if nothing is open or missing. -/
def result (reader : Reader) : Except ReadFault Json := do
  let reader ← reader.endWord
  match reader.mode, reader.builder.expected with
  | .between, .nothing => .ok reader.builder.result
  | _, _ => .error .malformed

end Reader

/-- Read a text that holds exactly one JSON value, nested at most as deep as a bound. -/
def parse (bound : Nat) (text : Text) : Except ReadFault Json := do
  (← text.foldlM Reader.step { builder := { bound } }).result

end ImportAtlas.Json
