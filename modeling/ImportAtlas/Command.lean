import ImportAtlas.Command.Call
import ImportAtlas.Command.Transcript
import ImportAtlas.Component.File
import ImportAtlas.Json.Writer
import ImportAtlas.Report.Analysis

/-!
# The command line

Four commands read a components file or start the service: `analyze` writes the whole report,
`cycles` and `zombies` list what they find, `serve` starts the service. A run is a function from
arguments and files to what it prints, writes and returns.
-/

namespace ImportAtlas.Command

/-- What a run depends on besides arguments and files. -/
structure Environment where
  host : Host
  console : Console
  serverAvailable : Bool

/-- What a run leaves behind. -/
structure Outcome where
  exit : Nat
  stdout : String := ""
  stderr : String := ""
  /-- The fault that ended the run, if it is none that the run reports itself. -/
  fault : Option Fault := none
  /-- The files after the run. -/
  files : FileTree := {}
  /-- The file that the run has written. -/
  written : Option PosixPath := none
  served : Option Server := none
  deriving Inhabited

/-- What the lines of a transcript print. A line that cannot be encoded ends the run. -/
def Transcript.print (console : Console) (transcript : Transcript) : String × Option Fault :=
  go transcript.lines
where
  go : List Text → String × Option Fault
    | [] => ("", transcript.fault)
    | line :: lines =>
        match (console.echo line).toString? with
        | none => ("", some .brokenText)
        | some text =>
            let (rest, fault) := go lines
            (text ++ rest, fault)

/-- Notices that are shown. -/
def noticeText (verbose : Bool) (notices : List Notice) : String :=
  String.join ((notices.filter (Notice.isShown verbose)).map fun notice =>
    notice.text.withEscapes ++ "\n")

/-- A message that ends a run. -/
def errorLine (environment : Environment) (message : Text) : String :=
  (environment.console.echo ("Error: " ++ message)).withEscapes

/-- The outcome of a run that has printed a transcript after some notices. -/
def printed (environment : Environment) (tree : FileTree) (notices : String)
    (transcript : Transcript) : Outcome :=
  let (stdout, fault) := transcript.print environment.console
  { exit := if fault.isSome then 1 else 0, stdout, stderr := notices, fault, files := tree }

/-- The outcome of a run that ends with a fault after some notices. -/
def failed (tree : FileTree) (notices : String) (fault : Fault) : Outcome :=
  { exit := 1, stderr := notices, fault := some fault, files := tree }

def loadNotices (deepest : Nat) (tree : FileTree) (file : PosixPath) : List Notice :=
  (ComponentsFile.notices deepest tree file).map fun message =>
    ⟨.warning, Analysis.loaderSource, message⟩

/-- Load the components and their catalog, then go on with what was noticed on the way. -/
def withComponents (environment : Environment) (tree : FileTree) (verbose : Bool)
    (file : PosixPath) (next : List Component → Catalog → List Notice → Outcome) : Outcome :=
  let host := environment.host
  let notices := loadNotices host.deepest tree file
  match ComponentsFile.load host.deepest tree file with
  | .error fault =>
      match fault.message (host.detail file fault) with
      | some message =>
          { exit := 1, files := tree
            stderr := noticeText verbose notices ++ errorLine environment message }
      | none => failed tree (noticeText verbose notices) fault
  | .ok components =>
      match Catalog.ofComponents components with
      | .error fault => failed tree (noticeText verbose notices) fault
      | .ok catalog => next components catalog notices

def runCycles (environment : Environment) (tree : FileTree) (verbose : Bool)
    (file : PosixPath) : Outcome :=
  withComponents environment tree verbose file fun components catalog notices =>
    let graph := DependencyGraph.ofComponents components catalog
    let notices := notices ++ [Analysis.graphNotice graph]
    match CycleReport.ofGraph graph catalog {} with
    | .error fault => failed tree (noticeText verbose notices) fault
    | .ok report =>
        printed environment tree
          (noticeText verbose (notices ++ [Analysis.cycleNotice report]))
          (listCycles environment.console report)

def runZombies (environment : Environment) (tree : FileTree) (verbose : Bool)
    (file : PosixPath) : Outcome :=
  withComponents environment tree verbose file fun components catalog notices =>
    match ZombieReport.ofComponents components catalog {} with
    | .error fault => failed tree (noticeText verbose notices) fault
    | .ok report =>
        printed environment tree
          (noticeText verbose (notices ++ [Analysis.zombieNotice report]))
          (listZombies environment.console report)

/-- The text of a whole report. -/
def reportText (analysis : Analysis) : String := analysis.toJson.render .report

def runAnalyze (environment : Environment) (tree : FileTree) (verbose : Bool)
    (file project : PosixPath) (output : Option PosixPath) (includeDev : Bool) : Outcome :=
  withComponents environment tree verbose file fun components catalog notices =>
    let settings : Settings := { projectPath := project.text, includeDev }
    let host := environment.host
    let notices :=
      noticeText verbose (notices ++ Analysis.notices components catalog settings host tree)
    match Analysis.ofProject components catalog settings host tree with
    | .error fault => failed tree notices fault
    | .ok analysis =>
        match output with
        | none => printed environment tree notices ⟨[reportText analysis], none⟩
        | some path =>
            match tree.write path (reportText analysis) with
            | .error fault => failed tree notices fault
            | .ok tree =>
                let line :=
                  "Wrote report for " ++ Text.ofNat components.length ++ " component(s) to " ++
                    path.text
                { printed environment tree notices ⟨[line], none⟩ with written := some path }

/-- Shown when no server is at hand. -/
def serverMissing : Text :=
  "uvicorn is required for the web API. Install with: pip install 'component-graph[web]'"

def runServe (environment : Environment) (tree : FileTree) (server : Server) : Outcome :=
  if environment.serverAvailable then
    let line :=
      "Starting component-graph API at http://" ++ server.host ++ ":" ++ Text.ofInt server.port
    let outcome := printed environment tree "" ⟨[line], none⟩
    if outcome.fault.isSome then outcome else { outcome with served := some server }
  else { exit := 1, stderr := errorLine environment serverMissing, files := tree }

/-- Run a command whose arguments have been checked. -/
def runCall (environment : Environment) (tree : FileTree) (verbose : Bool) : Call → Outcome
  | .analyze file project output includeDev =>
      runAnalyze environment tree verbose file project output includeDev
  | .cycles file => runCycles environment tree verbose file
  | .zombies file => runZombies environment tree verbose file
  | .serve server => runServe environment tree server
  | .help kind =>
      printed environment tree "" ⟨[usageLine (some kind)], none⟩

/-- The outcome of a run whose arguments are refused. -/
def refused (environment : Environment) (tree : FileTree) (kind : Option Kind)
    (fault : UsageFault) : Outcome :=
  let usage : Text :=
    if fault.showsUsage then usageLine kind ++ "\n" ++ hintLine kind ++ "\n\n" else []
  { exit := 2, files := tree
    stderr := usage.withEscapes ++ errorLine environment fault.message }

/-- Run a command with the arguments behind its name. -/
def runKind (environment : Environment) (tree : FileTree) (verbose : Bool) (kind : Kind)
    (arguments : List Text) : Outcome :=
  match scan kind.options true arguments with
  | .error fault => refused environment tree (some kind) (.scan fault)
  | .ok scan =>
      match check tree kind scan with
      | .error (.refused fault) => refused environment tree (some kind) fault
      | .error (.failed fault) => failed tree "" fault
      | .ok call => runCall environment tree verbose call

/-- The version of the program. -/
def version : Text := "0.1.0"

/-- What the options before a command ask for, if they end the run. -/
def endedByOptions (environment : Environment) (tree : FileTree) (scan : Scan) :
    Option Outcome :=
  match scan.given.find? fun spec => spec = versionOption || spec = helpOption with
  | none => none
  | some spec =>
      let line :=
        if spec = versionOption then programName ++ ", version " ++ version else usageLine none
      some (printed environment tree "" ⟨[line], none⟩)

/-- The outcome if no command has the given name. A name that looks like an option is read as
one before it is refused. -/
def unknownCommand (environment : Environment) (tree : FileTree) (name : Text)
    (arguments : List Text) : Outcome :=
  let similar := Text.suggestions name (Kind.all.map Kind.name)
  let refusal := refused environment tree none (.noSuchCommand name similar)
  if isOption name then
    match scan commonOptions false arguments with
    | .error fault => refused environment tree none (.scan fault)
    | .ok scan => (endedByOptions environment tree scan).getD refusal
  else refusal

/-- Run the program. -/
def run (environment : Environment) (tree : FileTree) (arguments : List Text) : Outcome :=
  match scan commonOptions false arguments with
  | .error fault => refused environment tree none (.scan fault)
  | .ok scan =>
      match endedByOptions environment tree scan with
      | some outcome => outcome
      | none =>
          match scan.positionals with
          | [] => refused environment tree none .missingCommand
          | name :: rest =>
              match Kind.ofName? name with
              | some kind => runKind environment tree (scan.has verboseOption) kind rest
              | none => unknownCommand environment tree name (name :: rest)

end ImportAtlas.Command
