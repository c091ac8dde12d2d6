import ImportAtlas.FileTree
import ImportAtlas.Host
import ImportAtlas.Package.ConfigFiles
import ImportAtlas.Package.References

/-!
# Packages used by configuration files

The configuration files of a project are found by their patterns, in the order of the patterns.
They are read at the same time, so warnings come in the order in which files are done. A file that
cannot be read gives a warning and uses nothing.
-/

namespace ImportAtlas.ConfigFiles

/-- Order of paths, part by part. -/
def partsLe : List Text → List Text → Bool
  | [], _ => true
  | _ :: _, [] => false
  | left :: lefts, right :: rights =>
      if left = right then partsLe lefts rights else left.le right

def pathLe (left right : PosixPath) : Bool := partsLe left.parts right.parts

/-- Paths below a directory that match the parts of a pattern. -/
def below (tree : FileTree) (directory : PosixPath) : List Text → List PosixPath
  | [] => [directory]
  | part :: parts =>
      if !tree.isDirectory directory.text then []
      else if part.contains '*' then
        ((tree.children directory.text).filter fun name => matchesName part name).flatMap
          fun name => below tree (directory.append name) parts
      else
        let path := directory.append part
        if tree.exists? path.text then below tree path parts else []

/-- Files that match one pattern, in the order of their names, unless one of their parts below
the root is ignored. -/
def matching (tree : FileTree) (root : PosixPath) (ignored : List Text) (pattern : Text) :
    List PosixPath :=
  let found := below tree root (PosixPath.ofText pattern).parts
  (found.mergeSort pathLe).filter fun path =>
    tree.isFile path.text &&
      !(path.parts.drop root.parts.length).any fun part => ignored.contains part

/-- All configuration files below a root. -/
def filesBelow (tree : FileTree) (root : PosixPath) (ignored : List Text) : List PosixPath :=
  (expanded.flatMap (matching tree root ignored)).eraseDups

/-- Whether a path is too long to look for anything at it. -/
def isTooLong (tree : FileTree) (path : PosixPath) : Bool :=
  match tree.resolve path.text with
  | .error .nameTooLong => true
  | _ => false

/-- Neither a root nor the paths looked for in it may be too long. -/
def checkRoot (tree : FileTree) (root : PosixPath) : Except Fault Unit :=
  let candidates := (expanded.filter fun pattern => !pattern.contains '*').map root.append
  if isTooLong tree root || (tree.isDirectory root.text && candidates.any (isTooLong tree)) then
    .error (.file .nameTooLong)
  else .ok ()

/-- All configuration files of a project. -/
def find (tree : FileTree) (root : PosixPath) (ignored : List Text) :
    Except Fault (List PosixPath) := do
  checkRoot tree root
  return filesBelow tree root ignored

/-- Packages that configuration files use, and warnings about files that cannot be read. -/
structure Use where
  packages : List Text
  warnings : List Text

/-- The warning about a configuration file that cannot be read. -/
def warning (host : Host) (path : PosixPath) (fault : Fault) : Text :=
  "Error processing config file " ++ path.text ++ ": " ++ host.detail path fault

/-- What one configuration file uses. -/
def useOf (host : Host) (tree : FileTree) (path : PosixPath) : Use :=
  match tree.readText path with
  | .ok text => ⟨References.packages text, []⟩
  | .error fault => ⟨[], [warning host path fault]⟩

/-- What all configuration files of a project use. -/
def use (host : Host) (tree : FileTree) (root : PosixPath) (ignored : List Text) :
    Except Fault Use := do
  let files ← find tree root ignored
  return {
    packages := (files.flatMap fun path => (useOf host tree path).packages).eraseDups
    warnings := (host.finished files).flatMap fun path => (useOf host tree path).warnings }

end ImportAtlas.ConfigFiles
