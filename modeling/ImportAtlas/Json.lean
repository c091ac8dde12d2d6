import ImportAtlas.Number

/-!
# Values of the data format

Records, project files and requests are JSON, and a field of a record may hold any value.
Scalars form a type of their own because only a scalar can name something: names, directories
and functions are looked up in tables, lists and objects are not.
-/

namespace ImportAtlas

/-- A value without parts. -/
inductive Atom where
  | null
  | bool (value : Bool)
  | num (value : Number)
  | text (value : Text)
  deriving DecidableEq, Inhabited

namespace Atom

/-- What decides whether two scalars are the same name. Truth values count as zero and one. -/
inductive Key where
  | null
  | num (value : Number.Key)
  | text (value : Text)
  deriving DecidableEq

def key : Atom → Key
  | .null => .null
  | .bool value => .num (.ratio (if value then 1 else 0) 0)
  | .num value => .num value.key
  | .text value => .text value

/-- Two scalars are the same name when their keys agree: `1`, `1.0` and `true` are one name. -/
def same : Atom → Atom → Bool
  | .text left, .text right => left == right
  | left, right => left.key == right.key

instance : BEq Atom := ⟨same⟩

theorem same_eq_key (left right : Atom) : left.same right = (left.key == right.key) := by
  unfold same
  split
  · rw [Bool.eq_iff_iff]
    simp [key]
  · rfl

theorem beq_iff_key {left right : Atom} : (left == right) = true ↔ left.key = right.key := by
  change left.same right = true ↔ _
  rw [same_eq_key, beq_iff_eq]

instance : EquivBEq Atom where
  rfl := beq_iff_key.2 rfl
  symm equal := beq_iff_key.2 (beq_iff_key.1 equal).symm
  trans first second := beq_iff_key.2 ((beq_iff_key.1 first).trans (beq_iff_key.1 second))

@[simp] theorem beq_text (left right : Text) :
    ((Atom.text left) == (Atom.text right)) = (left == right) := rfl

/-- A text has one spelling as a name. -/
theorem eq_of_beq_text {other : Atom} {text : Text} (equal : (other == .text text) = true) :
    other = .text text := by
  rw [beq_iff_key] at equal
  cases other <;> cases equal
  rfl

/-- Null, false, zero and the empty text stand for a value that was not given. -/
def isTruthy : Atom → Bool
  | .null => false
  | .bool value => value
  | .num value => !value.isZero
  | .text value => !value.isEmpty

def text? : Atom → Option Text
  | .text value => some value
  | _ => none

end Atom

/-- A value of the data format. An object keeps its fields in the order of writing. -/
inductive Json where
  | atom (value : Atom)
  | arr (items : List Json)
  | obj (fields : List (Text × Json))
  deriving Inhabited

namespace Json

abbrev null : Json := .atom .null
abbrev bool (value : Bool) : Json := .atom (.bool value)
abbrev int (value : Int) : Json := .atom (.num (.int value))
abbrev num (value : Number) : Json := .atom (.num value)
abbrev text (value : Text) : Json := .atom (.text value)

/-- A list of texts. -/
def texts (values : List Text) : Json := .arr (values.map Json.text)

/-- A list of scalars. -/
def atoms (values : List Atom) : Json := .arr (values.map Json.atom)

/-- A value counts as given unless it is null, false, zero or empty. -/
def isTruthy : Json → Bool
  | .atom value => value.isTruthy
  | .arr items => !items.isEmpty
  | .obj fields => !fields.isEmpty

def text? : Json → Option Text
  | .atom (.text value) => some value
  | _ => none

/-- Field of an object; nothing for any other value. -/
def field? (value : Json) (name : Text) : Option Json :=
  match value with
  | .obj fields => fields.lookup name
  | _ => none

/-- A field that is written only if it has a value. -/
def optionalField (name : Text) (value : Option Json) : List (Text × Json) :=
  (value.map fun value => (name, value)).toList

/-- Set a field: a known name keeps its place and takes the new value. -/
def setField (name : Text) (value : Json) : List (Text × Json) → List (Text × Json)
  | [] => [(name, value)]
  | (other, old) :: rest =>
      if other == name then (other, value) :: rest
      else (other, old) :: setField name value rest

mutual

/-- Equality of values. Scalars compare as names do, objects without regard to order. -/
def same : Json → Json → Bool
  | .atom left, .atom right => left == right
  | .arr left, .arr right => sameItems left right
  | .obj left, .obj right => left.length == right.length && sameFields left right
  | _, _ => false

def sameItems : List Json → List Json → Bool
  | [], [] => true
  | left :: lefts, right :: rights => same left right && sameItems lefts rights
  | _, _ => false

/-- Every field on the left has a field of equal name and value on the right. -/
def sameFields : List (Text × Json) → List (Text × Json) → Bool
  | [], _ => true
  | (name, left) :: lefts, rights =>
      (match rights.lookup name with
      | some right => same left right
      | none => false) && sameFields lefts rights

end

end Json

end ImportAtlas
