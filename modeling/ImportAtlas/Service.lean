import ImportAtlas.Report.Analysis
import ImportAtlas.Service.Input

/-!
# The service

The service answers requests for the graph, the cycles, the zombie clusters and the whole
analysis of the components that a request brings along. It stands inside a web framework, which
finds the endpoint of a request, reads its body and writes that of the reply. Only the last two
matter to the answers, and what is said about them holds for any framework.
-/

namespace ImportAtlas.Service

/-- What can be asked for. -/
inductive Endpoint where
  | health
  | graph
  | cycles
  | zombies
  | analysis
  deriving DecidableEq, Repr

namespace Endpoint

def all : List Endpoint := [.graph, .cycles, .zombies, .analysis, .health]

def path : Endpoint → Text
  | .health => "/api/health"
  | .graph => "/api/analysis/graph"
  | .cycles => "/api/analysis/circular"
  | .zombies => "/api/analysis/zombies"
  | .analysis => "/api/analysis/dependencies"

def method : Endpoint → Text
  | .health => "GET"
  | _ => "POST"

end Endpoint

/-- What a framework does for the service. It may stop a request, for a reason of its own. -/
structure Framework (ρ : Type) where
  /-- Read a body that brings component records. -/
  components : Json → Except ρ (List ComponentInput)
  /-- Read a body that asks for the whole analysis. -/
  analysis : Json → Except ρ AnalysisInput
  /-- Turn a result into what is sent. -/
  encode : Json → Except ρ Json

/-- The reply to a request. -/
inductive Reply (ρ : Type) where
  | granted (sent : Json)
  /-- The project is no directory. -/
  | notDirectory (project : Text)
  /-- The framework has stopped the request. -/
  | stopped (reason : ρ)

/-- What is said about a project that is no directory. -/
def notDirectoryDetail (project : Text) : Text := "Project path is not a directory: " ++ project

section Answers

variable {ρ α : Type}

/-- Send a result. -/
def Framework.send (framework : Framework ρ) (result : Json) : Reply ρ :=
  match framework.encode result with
  | .ok sent => .granted sent
  | .error reason => .stopped reason

/-- Go on with a body that could be read. -/
def whenRead (input : Except ρ α) (next : α → Except Fault (Reply ρ)) :
    Except Fault (Reply ρ) :=
  match input with
  | .ok value => next value
  | .error reason => .ok (.stopped reason)

def healthJson : Json := .obj [("status", .text "ok")]

def graphJson (graph : Digraph Text) : Json :=
  .obj [
    ("graph", .obj (graph.entries.map fun entry => (entry.1, .texts entry.2))),
    ("nodes", .int graph.size),
    ("edges", .int graph.edgeCount),
    ("isolated", .texts (Text.sorted graph.isolated))]

def answerGraph (components : List Component) : Except Fault Json := do
  let catalog ← Catalog.ofComponents components
  return graphJson (DependencyGraph.ofComponents components catalog)

def answerCycles (components : List Component) : Except Fault Json := do
  let catalog ← Catalog.ofComponents components
  let graph := DependencyGraph.ofComponents components catalog
  let report ← CycleReport.ofGraph graph catalog {}
  return report.toJson

def answerZombies (components : List Component) : Except Fault Json := do
  let catalog ← Catalog.ofComponents components
  let report ← ZombieReport.ofComponents components catalog {}
  return report.toJson

/-- The settings that an input asks for, if its project is a directory. An empty project stands
for the default, and a name that is too long for a file system is a fault. -/
def settingsOf? (host : Host) (tree : FileTree) (input : AnalysisInput) :
    Except Fault (Option Settings) := do
  let default : Settings := { includeDev := input.includeDev }
  let project := input.project.getD []
  if project = [] then return some default
  let path := (← (PosixPath.ofText project).expandHome host).text
  match tree.resolve path with
  | .ok (_, .directory) => return some { default with projectPath := path }
  | .error .nameTooLong => throw (.file .nameTooLong)
  | _ => return none

def answerAnalysis (framework : Framework ρ) (host : Host) (tree : FileTree)
    (input : AnalysisInput) : Except Fault (Reply ρ) := do
  match ← settingsOf? host tree input with
  | none => return .notDirectory (input.project.getD [])
  | some settings =>
      let components := input.components.map ComponentInput.toComponent
      let catalog ← Catalog.ofComponents components
      let analysis ← Analysis.ofProject components catalog settings host tree
      return framework.send analysis.toJson

/-- Answer a request that brings component records. -/
def answerComponents (framework : Framework ρ) (body : Json)
    (answer : List Component → Except Fault Json) : Except Fault (Reply ρ) :=
  whenRead (framework.components body) fun inputs =>
    (answer (inputs.map ComponentInput.toComponent)).map framework.send

/-- Reply to a request for an endpoint. -/
def reply (framework : Framework ρ) (host : Host) (tree : FileTree) (body : Json) :
    Endpoint → Except Fault (Reply ρ)
  | .health => .ok (framework.send healthJson)
  | .graph => answerComponents framework body answerGraph
  | .cycles => answerComponents framework body answerCycles
  | .zombies => answerComponents framework body answerZombies
  | .analysis => whenRead (framework.analysis body) (answerAnalysis framework host tree)

end Answers

end ImportAtlas.Service
