import ImportAtlas.Command.Usage
import ImportAtlas.FileTree
import ImportAtlas.Text.Integer

/-!
# Checked arguments

A call is a command whose arguments have been read and checked against the files that they name.
-/

namespace ImportAtlas.Command

/-- Where the service is asked to listen. -/
structure Server where
  host : Text
  port : Int
  deriving DecidableEq, Repr

/-- Why a run ends before its command does: the arguments are refused, or they cannot even be
looked at. -/
inductive Stop where
  | refused (fault : UsageFault)
  | failed (fault : Fault)
  deriving DecidableEq, Repr

/-- A command with its arguments. -/
inductive Call where
  | analyze (file project : PosixPath) (output : Option PosixPath) (includeDev : Bool)
  | cycles (file : PosixPath)
  | zombies (file : PosixPath)
  | serve (server : Server)
  | help (kind : Kind)
  deriving DecidableEq

/-- Which kinds of entry a path may lead to, and whether it must lead to one. -/
structure PathRule where
  noun : Text
  mustExist : Bool
  fileAllowed : Bool

def fileRule (mustExist : Bool) : PathRule := ⟨"File", mustExist, true⟩
def directoryRule : PathRule := ⟨"Directory", true, false⟩

/-- Check a path as it was given. A path that no file system can take ends the run. -/
def checkPath (tree : FileTree) (rule : PathRule) (hint path : Text) :
    Except Stop PosixPath :=
  let refuse (reason : Text) : Except Stop PosixPath :=
    .error (.refused (.invalidValue hint
      (rule.noun ++ " " ++ (FileName.shown path).quoted ++ " " ++ reason)))
  match tree.resolve path with
  | .error .brokenPath => .error (.failed (.file .brokenPath))
  | .error .nullInPath => .error (.failed (.file .nullInPath))
  | .error _ => if rule.mustExist then refuse "does not exist." else .ok (.ofText path)
  | .ok (_, .file _) => if rule.fileAllowed then .ok (.ofText path) else refuse "is a file."
  | .ok (_, .directory) =>
      if rule.fileAllowed then refuse "is a directory." else .ok (.ofText path)

def checkPort (text : Text) : Except Stop Int :=
  match Text.integer? text with
  | some port => .ok port
  | none =>
      .error (.refused
        (.invalidValue portOption.hint (text.quoted ++ " is not a valid integer.")))

/-- Check the value of one option. -/
def checkOption (tree : FileTree) (scan : Scan) (spec : OptionSpec) : Except Stop Unit :=
  match scan.value? spec with
  | none => .ok ()
  | some value =>
      if spec = projectOption then
        (checkPath tree directoryRule spec.hint value).map fun _ => ()
      else if spec = outputOption then
        (checkPath tree (fileRule false) spec.hint value).map fun _ => ()
      else if spec = portOption then (checkPort value).map fun _ => ()
      else .ok ()

/-- The components file among the positionals. -/
def checkFile (tree : FileTree) (scan : Scan) : Except Stop PosixPath :=
  match scan.positionals with
  | [] => .error (.refused .missingArgument)
  | path :: _ => checkPath tree (fileRule true) ("'" ++ argumentName ++ "'") path

/-- Positionals that a command does not take. -/
def checkExtra (kind : Kind) (scan : Scan) : Except Stop Unit :=
  match scan.positionals.drop (if kind.readsFile then 1 else 0) with
  | [] => .ok ()
  | extra => .error (.refused (.extraArguments extra))

def defaultPort : Int := 8430
def defaultHost : Text := "127.0.0.1"

/-- Check the arguments of a command: options in the order given, then the file, then whether
anything is left over. -/
def check (tree : FileTree) (kind : Kind) (scan : Scan) : Except Stop Call := do
  if scan.has helpOption then return .help kind
  scan.given.forM (checkOption tree scan)
  match kind with
  | .serve =>
      checkExtra kind scan
      let port ← ((scan.value? portOption).map checkPort).getD (.ok defaultPort)
      return .serve ⟨(scan.value? hostOption).getD defaultHost, port⟩
  | .analyze =>
      let file ← checkFile tree scan
      checkExtra kind scan
      let project := PosixPath.ofText ((scan.value? projectOption).getD ".")
      let output := (scan.value? outputOption).map PosixPath.ofText
      return .analyze file project output (scan.has includeDevOption)
  | .cycles =>
      let file ← checkFile tree scan
      checkExtra kind scan
      return .cycles file
  | .zombies =>
      let file ← checkFile tree scan
      checkExtra kind scan
      return .zombies file

end ImportAtlas.Command
