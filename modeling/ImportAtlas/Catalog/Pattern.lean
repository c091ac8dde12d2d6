import ImportAtlas.Component
import ImportAtlas.Specifier

/-!
# Import patterns

The keys under which a component can be imported. They follow from its name, its path and its
directory: the path with and without its extension, seen from the project root and from the
source directory, its last two parts, and the directory of a barrel file.
-/

namespace ImportAtlas

open Text

/-- The file name of a path without its extension. Backslashes count as slashes. -/
def fileStem (path : Text) : Text := (PosixPath.ofText (replace '\\' '/' path)).stem

namespace Pattern

/-- The name of the source directory, with its slash. -/
def sourceStart : Text := "src/"

/-- A path seen from the source directory, if it lies in it. -/
def withoutSource (path : Text) : List Text :=
  ((sourceStart.isPrefixOf? path).map fun rest => [rest]).getD []

/-- The last directory and the stem: `Button/index` for a barrel file. -/
def parentAndStem (stripped stem : Text) : List Text :=
  let parent := (PosixPath.ofText stripped).parent.name
  if parent ≠ [] then [parent ++ "/" ++ stem] else []

/-- The stem inside the directory that a record names. -/
def directoryAndStem (directory stem : Text) : List Text :=
  if directory ≠ [] then
    [((PosixPath.ofText (replace '\\' '/' directory)).append stem).text]
  else []

/-- A barrel file is imported by its directory. -/
def barrel (withoutExtension : Text) : List Text :=
  let parent := (PosixPath.ofText withoutExtension).parent
  if parent.name ≠ [] then
    let directory := Specifier.dropInternalStart parent.text
    parent.name :: directory :: withoutSource directory
  else []

/-- Patterns that follow from a path, already with slashes only, and a directory. -/
def ofPath (path directory : Text) : List Text :=
  let stem := fileStem path
  let withoutExtension := Specifier.dropSourceExtension path
  let stripped := Specifier.dropInternalStart withoutExtension
  if path = [] then [stem]
  else
    [stem, path, withoutExtension, stripped] ++ withoutSource stripped ++
      parentAndStem stripped stem ++ directoryAndStem directory stem ++
      (if stem = Text.ofString "index" then barrel withoutExtension else [])

end Pattern

namespace Component

/-- The directory as a text. It is looked at only if the path is not empty, and a record without
one has the empty text. -/
def directoryText (component : Component) (path : Text) : Except Fault (Text) :=
  if path = [] || !component.directory.isTruthy then .ok []
  else
    match component.directory with
    | .atom (.text directory) => .ok directory
    | _ => .error .notText

/-- The path as a text with slashes only. -/
def slashedPath (component : Component) : Except Fault (Text) :=
  match component.path with
  | .atom (.text path) => .ok (replace '\\' '/' path)
  | _ => .error .notText

/-- The name as a pattern, unless it counts as not given. -/
def namePattern (component : Component) : Except Fault (List Atom) :=
  if !component.name.isTruthy then .ok []
  else
    match component.name with
    | .atom name => .ok [name]
    | _ => .error .notName

/-- All keys under which a component can be imported, without repetition. -/
def importPatterns (component : Component) : Except Fault (List Atom) := do
  let path ← component.slashedPath
  let directory ← component.directoryText path
  let name ← component.namePattern
  let texts := (Pattern.ofPath path directory).filter (· ≠ [])
  return (name ++ texts.map fun text => Atom.text text).eraseDups

end Component

end ImportAtlas
