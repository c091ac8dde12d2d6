import ImportAtlas.Fault
import ImportAtlas.PosixPath

/-!
# The host of a run

The analyses rest on a system and on libraries that leave some things open: how deep values may be
nested that are read, what is said about a file that cannot be read, which of several files is
done first when they are read at the same time, and where users are at home. A host says what
these are. What holds of a run holds on every host.
-/

namespace ImportAtlas

/-- What a run finds around it. -/
structure Host where
  /-- Lists and objects that are read are nested at most this deep. -/
  deepest : Nat
  /-- What is said about a file that cannot be read, for a given reason. -/
  detail : PosixPath → Fault → Text
  /-- Files that are read at the same time, in the order in which they are done. -/
  finished : List PosixPath → List PosixPath
  finished_perm : ∀ paths, (finished paths).Perm paths
  /-- The home of a user, of the one who runs the program if no name is given. -/
  home : Text → Option Text

namespace Host

/-- What is said about a file that cannot be read. -/
def detailOf : Fault → Text
  | .invalidJson _ => "no JSON value"
  | .hugeInteger digits => "an integer of " ++ Text.ofNat digits ++ " digits"
  | .undecodable => "no UTF-8"
  | .file .notFound => "no such file"
  | .file .isDirectory => "a directory"
  | .file .notDirectory => "a part of the path is no directory"
  | .file .nameTooLong => "the path is too long"
  | _ => "unreadable"

/-- A host that reads one file after the other. -/
def sequential (home : Option Text) : Host where
  deepest := 1000
  detail _ fault := detailOf fault
  finished paths := paths
  finished_perm := .refl
  home user := if user = [] then home else none

end Host

namespace PosixPath

/-- Replace a first part that stands for the home of a user. -/
def expandHome (host : Host) (path : PosixPath) : Except Fault PosixPath :=
  match path.root, path.parts with
  | [], (.char '~' :: user) :: parts =>
      match host.home user with
      | some home => .ok { ofText home with parts := (ofText home).parts ++ parts }
      | none => .error .unknownHome
  | _, _ => .ok path

end PosixPath

end ImportAtlas
