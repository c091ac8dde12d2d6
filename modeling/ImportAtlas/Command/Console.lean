import ImportAtlas.Text

/-!
# Consoles

Commands print line by line and have parts of a line shown in a shade. How a console does this is
its own business. The usual one has codes that switch shades on and off; where they are not wanted,
all such codes are taken out, also those that stand in names.
-/

namespace ImportAtlas

/-- Ways to show text. -/
inductive Shade where
  | red
  | green
  | yellow
  | cyan
  | dim
  deriving DecidableEq, Repr

/-- Where a run prints. -/
structure Console where
  /-- A text in a shade. -/
  style : Shade → Text → Text
  /-- What is printed for a line. -/
  echo : Text → Text

/-! ## The usual console -/

namespace Console

/-- Begins every code. -/
def escape : Text := "\x1b["

def code : Shade → Text
  | .red => "31"
  | .green => "32"
  | .yellow => "33"
  | .cyan => "36"
  | .dim => "2"

/-- A text in a shade, which ends behind it. -/
def paint (shade : Shade) (text : Text) : Text :=
  escape ++ code shade ++ "m" ++ text ++ escape ++ "0m"

/-- Code points that a code begins with. -/
def isParameter (point : CodePoint) : Bool := 0x30 ≤ point.toNat && point.toNat ≤ 0x3f

/-- Code points that may follow the parameters of a code. -/
def isIntermediate (point : CodePoint) : Bool := 0x20 ≤ point.toNat && point.toNat ≤ 0x2f

/-- Code points that end a code. -/
def isFinal (point : CodePoint) : Bool := 0x40 ≤ point.toNat && point.toNat ≤ 0x7e

/-- The text behind a code that a text begins with. -/
def afterCode? (text : Text) : Option Text := do
  let rest ← escape.isPrefixOf? text
  match (rest.dropWhile isParameter).dropWhile isIntermediate with
  | point :: rest => if isFinal point then some rest else none
  | [] => none

/-- Text without codes, where the first `skip` code points belong to a code. -/
def stripFrom (skip : Nat) : Text → Text
  | [] => []
  | point :: text =>
      match skip with
      | skip + 1 => stripFrom skip text
      | 0 =>
          match afterCode? (point :: text) with
          | some rest => stripFrom (text.length - rest.length) text
          | none => point :: stripFrom 0 text

/-- Text without codes. -/
def strip (text : Text) : Text := stripFrom 0 text

/-- The usual console, with shades or without. -/
def usual (color : Bool) : Console where
  style := paint
  echo line :=
    let text := line ++ "\n"
    if color then text else strip text

end Console

end ImportAtlas
