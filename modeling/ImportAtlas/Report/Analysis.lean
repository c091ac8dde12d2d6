import ImportAtlas.Notice
import ImportAtlas.Report.Cycles
import ImportAtlas.Report.Packages
import ImportAtlas.Report.Zombies

/-!
# The whole analysis

Cycles, zombie clusters and packages of one project in one report.
-/

namespace ImportAtlas

/-- The three reports of a project. -/
structure Analysis where
  cycles : CycleReport
  zombies : ZombieReport
  packages : PackageReport
  deriving Inhabited

namespace Analysis

/-- Analyse the components of a project against a catalog. -/
def ofProject (components : List Component) (catalog : Catalog) (settings : Settings)
    (host : Host) (tree : FileTree) : Except Fault Analysis := do
  let graph := DependencyGraph.ofComponents components catalog
  let packages ← PackageReport.ofProject components catalog settings host tree
  let cycles ← CycleReport.ofGraph graph catalog settings
  let zombies ← ZombieReport.ofComponents components catalog settings
  return { cycles, zombies, packages }

def loaderSource : Text := "component_graph.loader"
def analyzerSource : Text := "component_graph.analyzer"
def graphSource : Text := "component_graph.analysis.dependency_graph"
def packageSource : Text := "component_graph.analysis.package_deps"
def cycleSource : Text := "component_graph.analysis.circular"
def zombieSource : Text := "component_graph.analysis.zombie_clusters"

def graphNotice (graph : Digraph Text) : Notice :=
  ⟨.debug, graphSource, DependencyGraph.summary graph⟩

def cycleNotice (report : CycleReport) : Notice := ⟨.debug, cycleSource, report.summary⟩

def zombieNotice (report : ZombieReport) : Notice := ⟨.debug, zombieSource, report.summary⟩

def packageNotices (report : PackageReport) : List Notice :=
  report.warnings.map (fun warning => ⟨.warning, packageSource, warning⟩) ++
    [⟨.debug, packageSource, report.summary⟩]

/-- The notices of an analysis, up to the step that fails. -/
def notices (components : List Component) (catalog : Catalog) (settings : Settings)
    (host : Host) (tree : FileTree) : List Notice :=
  let graph := DependencyGraph.ofComponents components catalog
  let start : List Notice :=
    [⟨.info, analyzerSource, "Analyzing " ++ Text.ofNat components.length ++ " components"⟩,
      graphNotice graph]
  match PackageReport.ofProject components catalog settings host tree with
  | .error _ => start
  | .ok packages =>
      let next := start ++ packageNotices packages
      match CycleReport.ofGraph graph catalog settings with
      | .error _ => next
      | .ok cycles =>
          next ++ [cycleNotice cycles] ++
            (match ZombieReport.ofComponents components catalog settings with
            | .error _ => []
            | .ok zombies => [zombieNotice zombies])

def toJson (analysis : Analysis) : Json :=
  .obj [
    ("circularDependencies", analysis.cycles.toJson),
    ("zombieClusters", analysis.zombies.toJson),
    ("dependencyAnalysis", analysis.packages.toJson)]

end Analysis

end ImportAtlas
