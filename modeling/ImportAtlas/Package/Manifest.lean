import ImportAtlas.Catalog
import ImportAtlas.FileTree
import ImportAtlas.Host

/-!
# The manifest of a project

The manifest declares the packages that a project depends on. Dependencies are an object from
names to versions; a list of pairs is taken as well. A manifest that cannot be read declares
nothing and gives a warning, one whose dependencies are of another form is a fault.
-/

namespace ImportAtlas.Manifest

def fileName : Text := "package.json"

/-- A pair: a list of two items, a text of two code points, or an object of two fields, which
stands for its field names. -/
def pairOf : Json → Except Fault (Atom × Json)
  | .arr [name, value] => do return (← Listing.nameOf name, value)
  | .arr _ => .error .notPair
  | .obj [(name, _), (value, _)] => .ok (.text name, .text value)
  | .obj _ => .error .notPair
  | .atom (.text text) =>
      match text with
      | [name, value] => .ok (.text [name], .text [value])
      | _ => .error .notPair
  | .atom _ => .error .notIterable

/-- Names and versions in a value that stands for dependencies. -/
def dependencies (value : Json) : Except Fault (List (Atom × Json)) :=
  if !value.isTruthy then .ok []
  else
    match value with
    | .obj fields => .ok (fields.map fun field => (.text field.1, field.2))
    | .arr items => items.mapM pairOf
    | .atom (.text _) => .error .notPair
    | .atom _ => .error .notIterable

/-- The declared packages of a manifest, with those for development on request. -/
def declared (manifest : Json) (includeDev : Bool) : Except Fault (Table Atom Json) :=
  match manifest with
  | .obj fields => do
      let field (name : Text) := (fields.lookup name).getD .null
      let declared := Table.ofList (← dependencies (field "dependencies"))
      if includeDev then
        return declared.insertAll (← dependencies (field "devDependencies"))
      else return declared
  | _ => .ok ∅

/-- Declared packages of a project and warnings. -/
structure Reading where
  declared : Table Atom Json
  warnings : List Text

/-- The warning about a manifest that cannot be read. -/
def warning (host : Host) (path : PosixPath) (fault : Fault) : Text :=
  "Could not read " ++ path.text ++ ": " ++ host.detail path fault

/-- Read the manifest of a project. -/
def read (host : Host) (tree : FileTree) (root : PosixPath) (includeDev : Bool) :
    Except Fault Reading :=
  let path := root.append fileName
  match tree.readJson host.deepest path with
  | .ok manifest => (declared manifest includeDev).map fun declared => ⟨declared, []⟩
  | .error .tooDeep => .error .tooDeep
  | .error fault => .ok ⟨∅, [warning host path fault]⟩

end ImportAtlas.Manifest
