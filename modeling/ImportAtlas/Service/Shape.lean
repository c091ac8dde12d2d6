import ImportAtlas.Service.Check
import ImportAtlas.Service.Input

/-!
# Checked request bodies

A body is an object whose fields have the declared types, each under its name or under an alias.
Only truth values may be given in other ways. This is one way to read bodies, the usual one.
-/

namespace ImportAtlas.Service.Shape

/-- Words for true and false, in any case. -/
def trueWords : List Text := ["1", "true", "t", "yes", "y", "on"]
def falseWords : List Text := ["0", "false", "f", "no", "n", "off"]

/-- A word for a truth value. -/
def booleanWord (text : Text) : Checked Bool :=
  let word := text.lowered
  if trueWords.contains word then .ok true
  else if falseWords.contains word then .ok false
  else Checked.refuse .unreadableBoolean (.text text)

/-- Zero or one. Any other integer is unreadable, and the number as given is reported. -/
def booleanInteger (value : Int) (given : Number) : Checked Bool :=
  if value = 0 then .ok false
  else if value = 1 then .ok true
  else Checked.refuse .unreadableBoolean (.num given)

/-- Integers are read as such only if they fit into 64 bits. -/
def integerBound : Int := Int.pow 2 63

/-- The integer that a double is, if it is one of less than 64 bits. -/
def integral? (value : Float) : Option Int :=
  if value.abs < 9223372036854775808.0 && value.floor == value then some value.toInt64.toInt
  else none

/-- A truth value, or a number or a word for one. -/
def boolean : Json → Checked Bool
  | .atom (.bool value) => .ok value
  | .atom (.text text) => booleanWord text
  | .atom (.num (.int value)) =>
      if -integerBound ≤ value && value < integerBound then booleanInteger value (.int value)
      else Checked.refuse .notBoolean (.int value)
  | .atom (.num (.float value)) =>
      match integral? value with
      | some whole => booleanInteger whole (.float value)
      | none => Checked.refuse .notBoolean (.num (.float value))
  | value => Checked.refuse .notBoolean value

/-- A list of texts. -/
def texts (value : Json) : Checked (List Text) := Checked.list Checked.text value

/-- A record whose fields have the declared types. -/
def component : Json → Checked ComponentInput
  | .obj record =>
      let name := Checked.required record "name" [] Checked.text
      let path := Checked.required record "fullPath" ["full_path"] Checked.text
      let directory := Checked.optional record ["directory"] [] Checked.text
      let imports := Checked.optional record ["imports"] [] texts
      let exports := Checked.optional record ["exports"] [] texts
      let functions := Checked.optional record ["functions"] none (Checked.nullable texts)
      let calls :=
        Checked.optional record ["functionCalls", "function_calls"] none
          (Checked.nullable (Checked.object texts))
      let content := Checked.optional record ["content"] none (Checked.nullable Checked.text)
      (name.and (path.and (directory.and (imports.and (exports.and
        (functions.and (calls.and content))))))).map
        fun (name, path, directory, imports, exports, functions, calls, content) =>
          { name, path, directory, imports, exports, functions
            calls := calls.map Table.ofList
            content }
  | value => Checked.refuse .notRecord value

/-- The records of a body. -/
def components (record : List (Text × Json)) : Checked (List ComponentInput) :=
  Checked.required record "components" [] (Checked.list component)

/-- The body of a request for the whole analysis. -/
def analysis (record : List (Text × Json)) : Checked AnalysisInput :=
  let project := Checked.optional record ["project_path"] none (Checked.nullable Checked.text)
  let includeDev := Checked.optional record ["include_dev_dependencies"] false boolean
  ((components record).and (project.and includeDev)).map
    fun (components, project, includeDev) => ⟨components, project, includeDev⟩

/-- A body, which must be an object. -/
def body {α : Type} (check : List (Text × Json) → Checked α) (value : Json) : Checked α :=
  Checked.within (.field "body") <|
    match value with
    | .obj record => check record
    | value => Checked.refuse .notRecord value

end ImportAtlas.Service.Shape
