import ImportAtlas.Json
import ImportAtlas.Text.Segment

/-!
# Checked values

A request body is checked against the shape that an endpoint declares. All problems are reported
at once, in the order of the declared fields, each with the place where it was found and the
value that was found there.
-/

namespace ImportAtlas.Service

/-- What is wrong with a value. -/
inductive ProblemKind where
  | missing
  | notText
  | brokenText
  | notList
  | notObject
  | notBoolean
  | unreadableBoolean
  | notRecord
  | malformed
  deriving DecidableEq, Repr

/-- The word under which a problem is reported. -/
def ProblemKind.text : ProblemKind → Text
  | .missing => "missing"
  | .notText => "string_type"
  | .brokenText => "string_unicode"
  | .notList => "list_type"
  | .notObject => "dict_type"
  | .notBoolean => "bool_type"
  | .unreadableBoolean => "bool_parsing"
  | .notRecord => "model_attributes_type"
  | .malformed => "json_invalid"

/-- One step into a value. -/
inductive Step where
  | field (name : Text)
  | item (index : Nat)
  deriving DecidableEq, Repr

def Step.toJson : Step → Json
  | .field name => .text name
  | .item index => .int index

/-- A problem, the steps that lead to it and the value that has it. -/
structure Problem where
  kind : ProblemKind
  steps : List Step
  value : Json

namespace Problem

/-- The same problem, seen from one step further out. -/
def within (step : Step) (problem : Problem) : Problem :=
  { problem with steps := step :: problem.steps }

def toJson (problem : Problem) : Json :=
  .obj [
    ("type", .text problem.kind.text),
    ("loc", .arr (problem.steps.map Step.toJson)),
    ("input", problem.value)]

end Problem

/-- A value, or all problems that were found. -/
abbrev Checked (α : Type) := Except (List Problem) α

namespace Checked

/-- A problem with a value itself. -/
def refuse {α : Type} (kind : ProblemKind) (value : Json) : Checked α :=
  .error [⟨kind, [], value⟩]

/-- Problems are seen from one step further out. -/
def within {α : Type} (step : Step) (value : Checked α) : Checked α :=
  value.mapError (List.map (Problem.within step))

/-- Both values, or the problems of both. -/
def and {α β : Type} : Checked α → Checked β → Checked (α × β)
  | .ok left, .ok right => .ok (left, right)
  | .ok _, .error problems => .error problems
  | .error problems, .ok _ => .error problems
  | .error left, .error right => .error (left ++ right)

/-- Check every item, the first of which has the index `start`. -/
def itemsFrom {α : Type} (check : Json → Checked α) (start : Nat) :
    List Json → Checked (List α)
  | [] => .ok []
  | value :: rest =>
      (((check value).within (.item start)).and (itemsFrom check (start + 1) rest)).map
        fun (first, others) => first :: others

/-- A list whose items pass a check. -/
def list {α : Type} (check : Json → Checked α) : Json → Checked (List α)
  | .arr items => itemsFrom check 0 items
  | value => refuse .notList value

/-- A text without halves of surrogate pairs. -/
def text : Json → Checked Text
  | .atom (.text text) =>
      if text.isBroken then refuse .brokenText (.text text) else .ok text
  | value => refuse .notText value

/-- Check the name and the value of every field. -/
def fields {α : Type} (check : Json → Checked α) :
    List (Text × Json) → Checked (List (Text × α))
  | [] => .ok []
  | (name, value) :: rest =>
      ((((text (.text name)).and (check value)).within (.field name)).and
        (fields check rest)).map fun (first, others) => first :: others

/-- An object whose values pass a check. -/
def object {α : Type} (check : Json → Checked α) : Json → Checked (List (Text × α))
  | .obj entries => fields check entries
  | value => refuse .notObject value

/-- A value that may be null. -/
def nullable {α : Type} (check : Json → Checked α) : Json → Checked (Option α)
  | .atom .null => .ok none
  | value => (check value).map some

/-- The first of the names under which a record has a field. -/
def find? (record : List (Text × Json)) : List Text → Option (Text × Json)
  | [] => none
  | name :: others =>
      match record.lookup name with
      | some value => some (name, value)
      | none => find? record others

/-- A field that must be there under one of its names, the first of which is reported. -/
def required {α : Type} (record : List (Text × Json)) (name : Text) (others : List Text)
    (check : Json → Checked α) : Checked α :=
  match find? record (name :: others) with
  | some (found, value) => (check value).within (.field found)
  | none => (refuse .missing (.obj record)).within (.field name)

/-- A field that may be left out. -/
def optional {α : Type} (record : List (Text × Json)) (names : List Text) (default : α)
    (check : Json → Checked α) : Checked α :=
  match find? record names with
  | some (found, value) => (check value).within (.field found)
  | none => .ok default

end Checked

end ImportAtlas.Service
