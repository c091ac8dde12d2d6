import ImportAtlas.Text.Segment

/-!
# Paths

A path is a root and a list of parts. Reading a path drops empty parts and single dots and keeps
double dots, which only a file system can resolve. Exactly two leading slashes are a root of
their own; any other number of them is one slash.
-/

namespace ImportAtlas

/-- A path in normal form. -/
structure PosixPath where
  root : Text
  parts : List Text
  deriving DecidableEq, Inhabited

namespace PosixPath

/-- The root that a text begins with. -/
def rootOf : Text → Text
  | .char '/' :: .char '/' :: .char '/' :: _ => "/"
  | .char '/' :: .char '/' :: _ => "//"
  | .char '/' :: _ => "/"
  | _ => []

/-- Parts that name something. -/
def isProper (part : Text) : Bool := part ≠ [] && part ≠ Text.ofString "."

/-- Read a path. -/
def ofText (text : Text) : PosixPath :=
  { root := rootOf text, parts := (Text.segments '/' text).filter isProper }

/-- Write a path. A path without root and parts is the current directory. -/
def text (path : PosixPath) : Text :=
  if path.root = [] && path.parts.isEmpty then "."
  else path.root ++ Text.join "/" path.parts

/-- Last part, empty if there is none. -/
def name (path : PosixPath) : Text := path.parts.getLast?.getD []

/-- The path without its last part. -/
def parent (path : PosixPath) : PosixPath := { path with parts := path.parts.dropLast }

/-- Index of the last dot. -/
def lastDot? (name : Text) : Option Nat :=
  (name.reverse.idxOf? (.char '.')).map fun fromEnd => name.length - 1 - fromEnd

/-- A name without its extension. A dot at either end begins no extension. -/
def stemOf (name : Text) : Text :=
  match lastDot? name with
  | some index => if 0 < index && index < name.length - 1 then name.take index else name
  | none => name

/-- Last part without its extension. -/
def stem (path : PosixPath) : Text := stemOf path.name

/-- Append the parts of a relative text. -/
def append (path : PosixPath) (relative : Text) : PosixPath :=
  { path with parts := path.parts ++ (ofText relative).parts }

end PosixPath

end ImportAtlas
