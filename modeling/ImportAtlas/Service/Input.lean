import ImportAtlas.Component

/-!
# What requests bring along

Requests bring component records with typed fields, and for the whole analysis also the project
and whether development dependencies count. Fields that are left out have default values.
-/

namespace ImportAtlas.Service

/-- A component record of a request. -/
structure ComponentInput where
  name : Text
  path : Text
  directory : Text := []
  imports : List Text := []
  exports : List Text := []
  functions : Option (List Text) := none
  calls : Option (Table Text (List Text)) := none
  content : Option Text := none

/-- The component that a record describes. -/
def ComponentInput.toComponent (input : ComponentInput) : Component where
  name := .text input.name
  path := .text input.path
  directory := .text input.directory
  imports := input.imports.map Json.text
  exports := input.exports.map Json.text
  functions := input.functions.map (List.map Json.text)
  calls := input.calls.map (Table.mapValues (List.map Json.text))
  content := (input.content.map Json.text).getD .null

/-- What the whole analysis is asked for. -/
structure AnalysisInput where
  components : List ComponentInput
  project : Option Text := none
  includeDev : Bool := false

end ImportAtlas.Service
