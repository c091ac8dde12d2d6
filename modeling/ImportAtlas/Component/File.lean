import ImportAtlas.Component.Records
import ImportAtlas.FileTree

/-!
# Components files
-/

namespace ImportAtlas.ComponentsFile

/-- Components in a file, whose values are nested at most as deep as given. -/
def load (deepest : Nat) (tree : FileTree) (path : PosixPath) :
    Except Fault (List Component) := do
  Records.parse (← tree.readJson deepest path)

/-- Notices that reading a file gives. -/
def notices (deepest : Nat) (tree : FileTree) (path : PosixPath) : List Text :=
  match tree.readJson deepest path with
  | .ok data => Records.notices data
  | .error _ => []

end ImportAtlas.ComponentsFile
