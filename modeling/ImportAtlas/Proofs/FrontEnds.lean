import ImportAtlas.Proofs.ClusterListing
import ImportAtlas.Proofs.CycleReport
import ImportAtlas.Proofs.RequestRecords

/-!
# Requests and commands

Components are analysed for a request that brings them along and for a command that is given a file
with them. The framework that reads requests and sends results is any one that takes over the fields
of a record. With such a framework the same data give the same components both ways, so the command
lists the report that answers the request.
-/

namespace ImportAtlas.Service

open Command

/-! ## Reports -/

/-- The reports on some components. -/
structure Reports (components : List Component) (catalog : Catalog) (cycles : CycleReport)
    (zombies : ZombieReport) : Prop where
  built : Catalog.ofComponents components = .ok catalog
  ofCycles : CycleReport.ofGraph (DependencyGraph.ofComponents components catalog) catalog {} =
    .ok cycles
  ofZombies : ZombieReport.ofComponents components catalog {} = .ok zombies

variable {ρ : Type} {framework : Framework ρ} {body : List (Text × Json)}
  {inputs : List ComponentInput} {components : List Component} {catalog : Catalog}
  {cycles : CycleReport} {zombies : ZombieReport}

/-- The reports on the components of a request are made. -/
theorem exists_reports (inputs : List ComponentInput) :
    ∃ catalog cycles zombies,
      Reports (inputs.map ComponentInput.toComponent) catalog cycles zombies := by
  have textual : ∀ component ∈ inputs.map ComponentInput.toComponent, component.Textual :=
    List.forall_mem_map.2 fun input _ => textual_toComponent input
  have named : ∀ component ∈ inputs.map ComponentInput.toComponent, CallGraph.Named component :=
    List.forall_mem_map.2 fun input _ => named_toComponent input
  obtain ⟨catalog, built⟩ := Catalog.exists_ofComponents textual
  obtain ⟨graph, graphBuilt⟩ := CallGraph.exists_ofComponents named catalog
  obtain ⟨cycles, made, -⟩ := CycleReport.exists_ofGraph
    (DependencyGraph.ofComponents (inputs.map ComponentInput.toComponent) catalog) catalog
    Settings.drawable_default
  exact ⟨catalog, cycles, _, built, made, ZombieReport.ofComponents_eq_ok graphBuilt {}⟩

/-! ## Requests -/

/-- The framework sends a result as it is. -/
def Framework.Sends (framework : Framework ρ) (result : Json) : Prop :=
  framework.encode result = .ok result

/-- A result answers the requests that bring a body to an endpoint, whatever files there are. It is
handed to the framework, and what is granted is the result if the framework sends it as it is. -/
structure Answers (framework : Framework ρ) (body : Json) (endpoint : Endpoint) (result : Json) :
    Prop where
  handed : ∀ host tree, reply framework host tree body endpoint = .ok (framework.send result)
  granted : framework.Sends result →
    ∀ host tree, reply framework host tree body endpoint = .ok (.granted result)

theorem Answers.of_handed {body : Json} {endpoint : Endpoint} {result : Json}
    (handed : ∀ host tree, reply framework host tree body endpoint = .ok (framework.send result)) :
    Answers framework body endpoint result where
  handed := handed
  granted := by
    intro sends host tree
    rw [handed host tree, Framework.send, sends]

theorem answerComponents_of_accepted {answer : List Component → Except Fault Json} {data : Json}
    {result : Json} (accepted : framework.components data = .ok inputs)
    (answered : answer (inputs.map ComponentInput.toComponent) = .ok result) :
    answerComponents framework data answer = .ok (framework.send result) := by
  rw [answerComponents, accepted, whenRead, answered]
  rfl

section Requests

variable {data : Json}
  (reports : Reports (inputs.map ComponentInput.toComponent) catalog cycles zombies)
  (accepted : framework.components data = .ok inputs)

include reports accepted

theorem Reports.answers_cycles : Answers framework data .cycles cycles.toJson := by
  have answered : answerCycles (inputs.map ComponentInput.toComponent) = .ok cycles.toJson :=
    bind_eq_ok_iff.2 ⟨catalog, reports.built, bind_eq_ok_iff.2 ⟨cycles, reports.ofCycles, rfl⟩⟩
  exact .of_handed fun _ _ => answerComponents_of_accepted accepted answered

theorem Reports.answers_zombies : Answers framework data .zombies zombies.toJson := by
  have answered : answerZombies (inputs.map ComponentInput.toComponent) = .ok zombies.toJson :=
    bind_eq_ok_iff.2 ⟨catalog, reports.built, bind_eq_ok_iff.2 ⟨zombies, reports.ofZombies, rfl⟩⟩
  exact .of_handed fun _ _ => answerComponents_of_accepted accepted answered

end Requests

/-! ## Commands -/

/-- Commands on a file that holds some data list these reports, and the only notices are about the
graph and the reports themselves. -/
structure Lists (data : Json) (graph : Digraph Text) (cycles : CycleReport)
    (zombies : ZombieReport) : Prop where
  ofCycles : ∀ (environment : Environment) (tree : FileTree) (verbose : Bool) (file : PosixPath),
    tree.readJson environment.host.deepest file = .ok data →
    runCycles environment tree verbose file =
      printed environment tree
        (noticeText verbose [Analysis.graphNotice graph, Analysis.cycleNotice cycles])
        (listCycles environment.console cycles)
  ofZombies : ∀ (environment : Environment) (tree : FileTree) (verbose : Bool) (file : PosixPath),
    tree.readJson environment.host.deepest file = .ok data →
    runZombies environment tree verbose file =
      printed environment tree (noticeText verbose [Analysis.zombieNotice zombies])
        (listZombies environment.console zombies)

theorem load_of_parsed {deepest : Nat} {tree : FileTree} {path : PosixPath} {data : Json}
    (read : tree.readJson deepest path = .ok data) (parsed : Records.parse data = .ok components)
    (unnoticed : Records.notices data = []) :
    ComponentsFile.load deepest tree path = .ok components ∧
      loadNotices deepest tree path = [] := by
  constructor
  · exact bind_eq_ok_iff.2 ⟨data, read, parsed⟩
  · simp [loadNotices, ComponentsFile.notices, read, unnoticed]

theorem Reports.lists (reports : Reports components catalog cycles zombies) {data : Json}
    (parsed : Records.parse data = .ok components) (unnoticed : Records.notices data = []) :
    Lists data (DependencyGraph.ofComponents components catalog) cycles zombies where
  ofCycles := by
    intro environment tree verbose file read
    obtain ⟨loaded, noNotice⟩ := load_of_parsed read parsed unnoticed
    rw [runCycles, withComponents, loaded]
    simp only [reports.built, reports.ofCycles, noNotice]
    rfl
  ofZombies := by
    intro environment tree verbose file read
    obtain ⟨loaded, noNotice⟩ := load_of_parsed read parsed unnoticed
    rw [runZombies_eq environment verbose loaded reports.built reports.ofZombies, noNotice]
    rfl

/-! ## Both ways -/

/-- Written records that a framework accepts give the same components, one for each record and in
the same order, when they are read from a file. So the reports that answer requests are those that
the commands list. -/
theorem requests_agree_with_commands (takesOver : framework.TakesOver) {records : List Json}
    (listed : body.lookup (Text.ofString "components") = some (.arr records))
    (written : ∀ record, .obj record ∈ records → Written record)
    (accepted : framework.components (.obj body) = .ok inputs) :
    Records.parse (.obj body) = .ok (inputs.map ComponentInput.toComponent) ∧
    inputs.length = records.length ∧
    ∃ catalog cycles zombies,
      Reports (inputs.map ComponentInput.toComponent) catalog cycles zombies ∧
      Answers framework (.obj body) .cycles cycles.toJson ∧
      Answers framework (.obj body) .zombies zombies.toJson ∧
      Lists (.obj body)
        (DependencyGraph.ofComponents (inputs.map ComponentInput.toComponent) catalog)
        cycles zombies := by
  obtain ⟨parsed, unnoticed, sameLength⟩ := takesOver.parse_eq_ok listed written accepted
  obtain ⟨catalog, cycles, zombies, reports⟩ := exists_reports inputs
  exact ⟨parsed, sameLength, catalog, cycles, zombies, reports, reports.answers_cycles accepted,
    reports.answers_zombies accepted, reports.lists parsed unnoticed⟩

/-- Two components that import each other, with fields that are given, empty, null and absent. -/
def valveRecords : List Json :=
  [.obj [("name", .text "Valve"), ("fullPath", .text "src/Valve.tsx"), ("directory", .text "src"),
    ("imports", .texts ["./Gauge"]), ("exports", .arr []), ("functions", .texts ["open"]),
    ("functionCalls", .obj [("open", .texts ["open"])]), ("content", .text "")],
   .obj [("fullPath", .text "src/Gauge.tsx"), ("name", .text "Gauge"),
    ("imports", .texts ["./Valve"]), ("functions", .null), ("content", .null)]]

def valveInputs : List ComponentInput :=
  [{ name := "Valve", path := "src/Valve.tsx", directory := "src", imports := ["./Gauge"],
     functions := some ["open"], calls := some (Table.ofList [("open", ["open"])]),
     content := some "" },
   { name := "Gauge", path := "src/Gauge.tsx", imports := ["./Valve"] }]

theorem written_valveRecords : ∀ record, .obj record ∈ valveRecords → Written record := by
  rintro record (_ | ⟨_, _ | ⟨_, ⟨⟩⟩⟩)
  · exact ⟨⟨rfl, rfl⟩, nofun, nofun⟩
  · exact ⟨⟨rfl, rfl⟩, nofun, nofun⟩

/-- The usual framework with an encoder that sends every result. -/
def sending : Framework Refusal := { usual id with encode := .ok }

theorem requests_agree_with_commands_valve :
    sending.TakesOver ∧
    (∀ record, .obj record ∈ valveRecords → Written record) ∧
    sending.components (.obj [("components", .arr valveRecords)]) = .ok valveInputs ∧
    Records.parse (.obj [("components", .arr valveRecords)]) =
      .ok (valveInputs.map ComponentInput.toComponent) ∧
    ∃ graph cycles zombies,
      (∀ host tree, reply sending host tree (.obj [("components", .arr valveRecords)]) .cycles =
        .ok (.granted cycles.toJson)) ∧
      (∀ host tree, reply sending host tree (.obj [("components", .arr valveRecords)]) .zombies =
        .ok (.granted zombies.toJson)) ∧
      cycles.groups.length = 1 ∧ zombies.clusters.length = 2 ∧
      Lists (.obj [("components", .arr valveRecords)]) graph cycles zombies := by
  have takesOver : sending.TakesOver := takesOver_usual id
  have accepted : sending.components (.obj [("components", .arr valveRecords)]) =
      .ok valveInputs := rfl
  obtain ⟨parsed, -, catalog, cycles, zombies, reports, answersCycles, answersZombies, lists⟩ :=
    requests_agree_with_commands takesOver rfl written_valveRecords accepted
  have computed :
      ∀ catalog ∈ (Catalog.ofComponents (valveInputs.map ComponentInput.toComponent)).toOption,
        (∀ cycles ∈ (CycleReport.ofGraph (DependencyGraph.ofComponents
            (valveInputs.map ComponentInput.toComponent) catalog) catalog {}).toOption,
          cycles.groups.length = 1) ∧
        ∀ zombies ∈ (ZombieReport.ofComponents (valveInputs.map ComponentInput.toComponent) catalog
            {}).toOption,
          zombies.clusters.length = 2 := by
    decide +kernel
  obtain ⟨oneGroup, twoClusters⟩ := computed catalog (toOption_eq_some_iff.2 reports.built)
  exact ⟨takesOver, written_valveRecords, accepted, parsed, _, cycles, zombies,
    answersCycles.granted rfl, answersZombies.granted rfl,
    oneGroup cycles (toOption_eq_some_iff.2 reports.ofCycles),
    twoClusters zombies (toOption_eq_some_iff.2 reports.ofZombies), lists⟩

end ImportAtlas.Service
