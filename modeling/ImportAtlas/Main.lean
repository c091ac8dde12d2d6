import ImportAtlas.Command

/-!
# The program

A run sees only the files that its arguments can name. They are looked up before the run, and
what the run has written is put back after it.
-/

namespace ImportAtlas.Program

/-- The place that a path leads to if all directories on the way exist. -/
def placeOf (path : PosixPath) : Place :=
  path.parts.foldl Place.next (.start (path.root ≠ []))

/-- A path as the file system takes it. -/
def fileName (path : PosixPath) : String := path.text.withEscapes

/-- Add what lies at a path, if anything does. -/
def look (tree : FileTree) (path : PosixPath) : IO FileTree := do
  let place := placeOf path
  if place.isFixed then return tree
  let full := (← IO.currentDir) / fileName path
  if ← full.isDir then return ⟨tree.entries.insert place .directory⟩
  else if ← full.pathExists then
    try return ⟨tree.entries.insert place (.file (← IO.FS.readBinFile full))⟩
    catch _ => return tree
  else return tree

/-- Add what lies at a path and in all directories on the way. -/
def lookAlong (tree : FileTree) (path : PosixPath) : IO FileTree :=
  (List.range (path.parts.length + 1)).foldlM
    (fun tree length => look tree { path with parts := path.parts.take length }) tree

/-- Add all that lies directly in a directory. -/
def lookInside (tree : FileTree) (path : PosixPath) : IO FileTree := do
  let full := (← IO.currentDir) / fileName path
  if ← full.isDir then
    (← full.readDir).foldlM (fun tree entry => look tree (path.append entry.fileName)) tree
  else return tree

/-- The directory whose files configure the component browser of a project. -/
def storybook : Text := ".storybook"

/-- The paths that an argument can name: itself, and what stands behind an equals sign or a
short option. -/
def pathsIn (argument : Text) : List Text :=
  [argument] ++ (Command.cutAtEquals argument).2.toList ++
    (if Text.startsWith argument "-" then [argument.drop 2] else [])

/-- The files that arguments can name. -/
def snapshot (arguments : List Text) : IO FileTree :=
  (Text.ofString "." :: arguments.flatMap pathsIn).foldlM
    (fun tree text => do
      let path := PosixPath.ofText text
      let tree ← lookAlong tree path
      let tree ← lookInside tree path
      let tree ← look tree (path.append storybook)
      lookInside tree (path.append storybook))
    {}

/-- Put back what a run has written. -/
def store (outcome : Command.Outcome) : IO Unit := do
  let some path := outcome.written | return
  let .ok bytes := outcome.files.read path | return
  IO.FS.writeBinFile (fileName path) bytes

/-- Run the program on the files of the working directory. -/
def run (arguments : List String) : IO UInt32 := do
  let stdout ← IO.getStdout
  let environment : Command.Environment :=
    { host := .sequential ((← IO.getEnv "HOME").map Text.ofString)
      console := .usual (← stdout.isTty)
      serverAvailable := false }
  let arguments := arguments.map Text.ofString
  let outcome := Command.run environment (← snapshot arguments) arguments
  store outcome
  stdout.putStr outcome.stdout
  stdout.flush
  (← IO.getStderr).putStr outcome.stderr
  return UInt32.ofNat outcome.exit

end ImportAtlas.Program

/-- Entry point. -/
def main (arguments : List String) : IO UInt32 := ImportAtlas.Program.run arguments
