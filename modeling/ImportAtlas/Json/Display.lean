import ImportAtlas.Json
import ImportAtlas.Number.Shortest
import ImportAtlas.Text.Quoted
import ImportAtlas.Text.Segment

/-!
# The text of a value inside an identifier

Identifiers and listings are made from names, and a name may be any value. A text stands for
itself, other scalars have a spelling of their own, and inside lists and objects texts are quoted.
-/

namespace ImportAtlas

/-- Spelling of a scalar. A text is its own spelling. -/
def Atom.display : Atom → Text
  | .null => "None"
  | .bool value => if value then "True" else "False"
  | .num value => value.text
  | .text value => value

/-- Spelling of a scalar inside a list or an object. -/
def Atom.displayInside : Atom → Text
  | .text value => Text.quoted value
  | other => other.display

namespace Json

mutual

/-- Spelling of a value inside a list or an object. -/
def displayInside : Json → Text
  | .atom value => value.displayInside
  | .arr items => "[" ++ Text.join ", " (displayItems items) ++ "]"
  | .obj fields => "\x7b" ++ Text.join ", " (displayFields fields) ++ "\x7d"

def displayItems : List Json → List Text
  | [] => []
  | item :: items => displayInside item :: displayItems items

def displayFields : List (Text × Json) → List Text
  | [] => []
  | (name, value) :: fields =>
      ((Atom.text name).displayInside ++ ": " ++ displayInside value) :: displayFields fields

end

/-- Spelling of a value that stands alone. -/
def display : Json → Text
  | .atom value => value.display
  | other => other.displayInside

@[simp] theorem display_text (value : Text) : display (.text value) = value := rfl

end Json

end ImportAtlas
