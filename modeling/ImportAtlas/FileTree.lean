import ImportAtlas.Fault
import ImportAtlas.FileTree.Name
import ImportAtlas.Json.Reader
import ImportAtlas.PosixPath
import ImportAtlas.Table

/-!
# File trees

The files that a run can see, as a value: which places hold a file or a directory. Places are
counted from the working directory or from the root. The working directory, the root and
whatever lies above the working directory always exist.
-/

namespace ImportAtlas

/-- Where something lies. -/
structure Place where
  fromRoot : Bool
  parts : List Text
  deriving DecidableEq, Inhabited

/-- What lies at a place. -/
inductive FileEntry where
  | file (bytes : ByteArray)
  | directory
  deriving Inhabited

/-- Files and directories by their place. -/
structure FileTree where
  entries : Table Place FileEntry := ∅
  deriving Inhabited

namespace Place

/-- Start of a path. -/
def start (fromRoot : Bool) : Place := ⟨fromRoot, []⟩

/-- The place of a name in a directory. -/
def child (place : Place) (name : Text) : Place :=
  { place with parts := place.parts ++ [FileName.canonical name] }

/-- The part that leads one level up. -/
def upward : Text := ".."

/-- The working directory, the root, or a place above the working directory. -/
def isFixed (place : Place) : Bool := place.parts.all (· == upward)

/-- One level up. Above the working directory the steps are kept, above the root there is only
the root. -/
def up (place : Place) : Place :=
  if place.isFixed then if place.fromRoot then place else place.child upward
  else { place with parts := place.parts.dropLast }

/-- One part of a path further. -/
def next (place : Place) (part : Text) : Place :=
  if part = [] || part = Text.ofString "." then place
  else if part = upward then place.up
  else place.child part

end Place

namespace FileTree

/-! ## Looking -/

/-- A path has at most this many bytes. -/
def longestPath : Nat := 4095

/-- Check what can be said of a path without looking at files. -/
def checkPath (path : Text) : Except FileFault Unit :=
  if path.any fun point => point.char?.isNone && !FileName.standsForByte point then
    .error .brokenPath
  else if path.contains '\x00' then .error .nullInPath
  else if path = [] then .error .notFound
  else if (FileName.bytes path).length > longestPath then .error .nameTooLong
  else .ok ()

def entryAt? (tree : FileTree) (place : Place) : Option FileEntry :=
  if place.isFixed then some .directory else tree.entries.get? place

/-- Go one part further. Only a directory can be left. -/
def follow (tree : FileTree) (here : Place × FileEntry) (part : Text) :
    Except FileFault (Place × FileEntry) :=
  match here.2 with
  | .file _ => .error .notDirectory
  | .directory =>
      if FileName.isTooLong part then .error .nameTooLong
      else
        let place := here.1.next part
        match tree.entryAt? place with
        | some entry => .ok (place, entry)
        | none => .error .notFound

/-- Whether a path is counted from the root. -/
def startsAtRoot (path : Text) : Bool := path.head? = some (.char '/')

/-- What a path leads to, part by part. -/
def resolve (tree : FileTree) (path : Text) : Except FileFault (Place × FileEntry) := do
  checkPath path
  (Text.segments '/' path).foldlM tree.follow (.start (startsAtRoot path), .directory)

def isDirectory (tree : FileTree) (path : Text) : Bool :=
  match tree.resolve path with
  | .ok (_, .directory) => true
  | _ => false

def isFile (tree : FileTree) (path : Text) : Bool :=
  match tree.resolve path with
  | .ok (_, .file _) => true
  | _ => false

def exists? (tree : FileTree) (path : Text) : Bool := (tree.resolve path).isOk

/-- Names of what a directory holds. -/
def children (tree : FileTree) (path : Text) : List Text :=
  match tree.resolve path with
  | .ok (place, .directory) =>
      tree.entries.keys.filterMap fun other =>
        if other.fromRoot = place.fromRoot && other.parts.dropLast = place.parts then
          other.parts.getLast?
        else none
  | _ => []

/-! ## Reading -/

/-- Bytes of a file. -/
def read (tree : FileTree) (path : PosixPath) : Except Fault ByteArray :=
  match tree.resolve path.text with
  | .ok (_, .file bytes) => .ok bytes
  | .ok (_, .directory) => .error (.file .isDirectory)
  | .error reason => .error (.file reason)

/-- Line ends of every kind become line feeds. -/
def unifyLineEnds : Text → Text
  | [] => []
  | .char '\r' :: .char '\n' :: rest => '\n' :: unifyLineEnds rest
  | .char '\r' :: rest => '\n' :: unifyLineEnds rest
  | point :: rest => point :: unifyLineEnds rest

/-- The text that bytes encode in UTF-8. -/
def decode (bytes : ByteArray) : Except Fault Text :=
  match String.fromUTF8? bytes with
  | some text => .ok (unifyLineEnds text)
  | none => .error .undecodable

/-- Text of a file. -/
def readText (tree : FileTree) (path : PosixPath) : Except Fault Text := do
  decode (← tree.read path)

/-- JSON value in a file, nested at most as deep as given. -/
def readJson (tree : FileTree) (deepest : Nat) (path : PosixPath) : Except Fault Json := do
  match Json.parse deepest (← tree.readText path) with
  | .ok value => .ok value
  | .error .malformed => .error (.invalidJson path.text)
  | .error (.hugeInteger digits) => .error (.hugeInteger digits)
  | .error .tooDeep => .error .tooDeep

/-! ## Writing -/

/-- Add the directories on a way, part by part. -/
def addWay (tree : FileTree) (place : Place) : List Text → FileTree × Place
  | [] => (tree, place)
  | part :: parts =>
      let next := place.next part
      match tree.entryAt? next with
      | some _ => addWay tree next parts
      | none => addWay ⟨tree.entries.insert next .directory⟩ next parts

/-- Add a directory and those on the way to it. -/
def addDirectory (tree : FileTree) (path : PosixPath) : FileTree :=
  (tree.addWay (.start (path.root ≠ [])) path.parts).1

/-- Add a file and the directories on the way to it. -/
def addFile (tree : FileTree) (path : PosixPath) (bytes : ByteArray) : FileTree :=
  let (tree, place) := tree.addWay (.start (path.root ≠ [])) path.parent.parts
  ⟨tree.entries.insert (place.next path.name) (.file bytes)⟩

/-- Write a text to a file, whose directory must exist. -/
def write (tree : FileTree) (path : PosixPath) (text : String) : Except Fault FileTree :=
  match tree.resolve path.text with
  | .ok (_, .directory) => .error (.file .isDirectory)
  | .ok (place, .file _) => .ok ⟨tree.entries.insert place (.file text.toUTF8)⟩
  | .error .notFound =>
      match tree.resolve path.parent.text with
      | .ok (place, .directory) =>
          .ok ⟨tree.entries.insert (place.child path.name) (.file text.toUTF8)⟩
      | .ok (_, .file _) => .error (.file .notDirectory)
      | .error reason => .error (.file reason)
  | .error reason => .error (.file reason)

end FileTree

end ImportAtlas
