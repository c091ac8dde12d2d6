import ImportAtlas.Fault
import ImportAtlas.Json.Display
import ImportAtlas.Table

/-!
# Components

A component is one record of the source parser: where it lives, what it imports and exports, and
which of its functions call which. The fields of a record may hold any value. A component keeps
them as they are, and the parts of the program that need a text or a name ask for one.
-/

namespace ImportAtlas

/-- One record of the source parser. -/
structure Component where
  name : Json
  path : Json
  directory : Json := .text ""
  imports : List Json := []
  exports : List Json := []
  /-- Declared functions, if the record has a list of them. -/
  functions : Option (List Json) := none
  /-- Callees by the name of the calling function, if the record has such an object. -/
  calls : Option (Table Text (List Json)) := none
  content : Json := .null
  deriving Inhabited

namespace Component

/-- The items of a value that stands for a list: the items of a list, the code points of a text,
the field names of an object, and none for a value that was not given. -/
def itemsOf (value : Json) : Except Fault (List Json) :=
  if !value.isTruthy then .ok []
  else
    match value with
    | .arr items => .ok items
    | .obj fields => .ok (fields.map fun field => .text field.1)
    | .atom (.text text) => .ok (text.map fun point => .text [point])
    | .atom _ => .error .notIterable

/-- The callees of each function, each a value that stands for a list. -/
def callsOf : List (Text × Json) → Except Fault (List (Text × List Json))
  | [] => .ok []
  | (name, value) :: rest => do
      let callees ← itemsOf value
      let others ← callsOf rest
      return (name, callees) :: others

/-- A field that must be present. -/
def required (record : List (Text × Json)) (field : Text) : Except Fault Json :=
  match record.lookup field with
  | some value => .ok value
  | none => .error (.missingField field)

/-- Read a record from its fields. -/
def ofFields (record : List (Text × Json)) : Except Fault Component := do
  let optional (field : Text) : Json := (record.lookup field).getD .null
  let name ← required record "name"
  let path ← required record "fullPath"
  let directory := optional "directory"
  let imports ← itemsOf (optional "imports")
  let exports ← itemsOf (optional "exports")
  let functions :=
    match optional "functions" with
    | .arr items => some items
    | _ => none
  let calls ←
    match optional "functionCalls" with
    | .obj fields => (callsOf fields).map fun entries => some (Table.ofList entries)
    | _ => .ok none
  return {
    name, path, imports, exports, functions, calls
    directory := if directory.isTruthy then directory else .text ""
    content := optional "content" }

/-- Read a record. -/
def ofJson : Json → Except Fault Component
  | .obj fields => ofFields fields
  | _ => .error .notRecord

/-- Separates the path from the name in an identifier. -/
def idSeparator : Text := "#"

/-- The vertex of a component in every graph: its path and its name, so that two files with the
same stem stay apart. -/
def id (component : Component) : Text :=
  component.path.display ++ idSeparator ++ component.name.display

/-- All fields of a record, absent ones as null. -/
def toJson (component : Component) : Json :=
  .obj [
    ("name", component.name),
    ("fullPath", component.path),
    ("directory", component.directory),
    ("imports", .arr component.imports),
    ("exports", .arr component.exports),
    ("functions", (component.functions.map Json.arr).getD .null),
    ("functionCalls",
      (component.calls.map fun calls =>
        Json.obj (calls.entries.map fun entry => (entry.1, .arr entry.2))).getD .null),
    ("content", component.content)]

/-- Equality of records, field by field. -/
def same (left right : Component) : Bool := left.toJson.same right.toJson

end Component

end ImportAtlas
