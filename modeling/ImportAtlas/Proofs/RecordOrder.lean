import ImportAtlas.Proofs.CallGraph.Functions
import ImportAtlas.Proofs.Digraph.Alike
import ImportAtlas.Proofs.ZombieClusters
import ImportAtlas.Report.Packages

/-!
# The order of records

Where no two records share an identifier the catalog keeps them all, so each pattern is held by the
same records in whatever order they come. Hence imports mean the same, the graphs have the same
vertices and edges, and what is said of them as sets is the same. The order shows in the lists
alone: where a cycle starts and how the clusters share out their vertices.
-/

namespace ImportAtlas.RecordOrder

/-- The same records, no two with one identifier, in two orders. -/
structure Reordered (components others : List Component) : Prop where
  distinct : (components.map Component.id).Nodup
  perm : components.Perm others

namespace Reordered

variable {components others : List Component} {catalog otherCatalog : Catalog}

theorem distinct_right (reordered : Reordered components others) :
    (others.map Component.id).Nodup :=
  (reordered.perm.map Component.id).nodup reordered.distinct

/-! ## What imports mean -/

theorem isHeld_eq (reordered : Reordered components others) :
    Catalog.isHeld components = Catalog.isHeld others := by
  funext pattern
  rw [Catalog.isHeld, Catalog.isHeld, Catalog.kept_eq_self reordered.distinct,
    Catalog.kept_eq_self reordered.distinct_right]
  exact reordered.perm.any_eq

theorem mem_holders_iff (reordered : Reordered components others) (pattern : Atom) (id : Text) :
    id ∈ Catalog.holders components pattern ↔ id ∈ Catalog.holders others pattern := by
  rw [Catalog.holders, Catalog.holders, Catalog.kept_eq_self reordered.distinct,
    Catalog.kept_eq_self reordered.distinct_right]
  exact ((reordered.perm.filter _).map Component.id).mem_iff

section Catalogs

variable (reordered : Reordered components others)
  (built : Catalog.ofComponents components = .ok catalog)
  (otherBuilt : Catalog.ofComponents others = .ok otherCatalog)

include reordered built otherBuilt

/-- The same imports mean packages. -/
theorem isExternal_eq (specifier : Text) :
    catalog.isExternal specifier = otherCatalog.isExternal specifier := by
  simp only [Catalog.isExternal, Catalog.isPackage, Catalog.contains_byImport built,
    Catalog.contains_byImport otherBuilt, reordered.isHeld_eq]

/-- An import means the same components. -/
theorem mem_resolveImport_iff (specifier : Json) (id : Text) :
    id ∈ catalog.resolveImport specifier ↔ id ∈ otherCatalog.resolveImport specifier := by
  fun_cases Catalog.resolveImport catalog specifier with
  | case1 specifier =>
      change id ∈ catalog.resolve specifier ↔ id ∈ otherCatalog.resolve specifier
      rw [Catalog.resolve_eq built, Catalog.resolve_eq otherBuilt,
        reordered.isExternal_eq built otherBuilt, Catalog.firstHeld?, Catalog.firstHeld?,
        reordered.isHeld_eq]
      split
      · rfl
      · split
        · exact reordered.mem_holders_iff _ id
        · rfl
  | case2 specifier other => simp [Catalog.resolveImport]

theorem alike_dependencyGraph :
    Digraph.Alike (DependencyGraph.ofComponents components catalog)
      (DependencyGraph.ofComponents others otherCatalog) := by
  constructor
  · intro id
    rw [List.contains_iff_mem, List.contains_iff_mem, DependencyGraph.mem_keys_ofComponents,
      DependencyGraph.mem_keys_ofComponents]
    exact (reordered.perm.map Component.id).mem_iff
  · intro source target
    rw [Digraph.edge_iff_mem, Digraph.edge_iff_mem, DependencyGraph.mem_targets_iff,
      DependencyGraph.mem_targets_iff]
    simp only [reordered.perm.mem_iff, reordered.mem_resolveImport_iff built otherBuilt]

/-- The same packages are imported. -/
theorem mem_importedPackages_iff (name : Text) :
    name ∈ PackageReport.importedPackages components catalog ↔
      name ∈ PackageReport.importedPackages others otherCatalog := by
  have samePackage : PackageReport.packageOf? catalog = PackageReport.packageOf? otherCatalog := by
    funext specifier
    simp only [PackageReport.packageOf?, reordered.isExternal_eq built otherBuilt]
  rw [PackageReport.importedPackages, PackageReport.importedPackages, samePackage,
    List.mem_eraseDups, List.mem_eraseDups]
  exact ((reordered.perm.flatMap_right Component.imports).filterMap _).mem_iff

theorem alike_callGraph {graph otherGraph : Digraph Vertex}
    (graphBuilt : CallGraph.ofComponents components catalog = .ok graph)
    (otherGraphBuilt : CallGraph.ofComponents others otherCatalog = .ok otherGraph) :
    Digraph.Alike graph otherGraph := by
  apply CallGraph.Layered.alike (CallGraph.ofComponents_layered graphBuilt)
    (CallGraph.ofComponents_layered otherGraphBuilt)
    (reordered.alike_dependencyGraph built otherBuilt)
  exact CallGraph.get?_function_of_perm graphBuilt otherGraphBuilt reordered.distinct reordered.perm

end Catalogs

end Reordered

/-- What two runs find is the same but for the order in which it is listed. Vertices are compared as
the graphs compare their keys. -/
structure SameFindings (components others : List Component) (catalog otherCatalog : Catalog)
    (graph otherGraph : Digraph Vertex) : Prop where
  keys : ∀ id, id ∈ (DependencyGraph.ofComponents components catalog).keys ↔
    id ∈ (DependencyGraph.ofComponents others otherCatalog).keys
  targets : ∀ id target, target ∈ (DependencyGraph.ofComponents components catalog).targets id ↔
    target ∈ (DependencyGraph.ofComponents others otherCatalog).targets id
  noCycle : (DependencyGraph.ofComponents components catalog).findCycles = [] ↔
    (DependencyGraph.ofComponents others otherCatalog).findCycles = []
  entryPoints : ∀ vertex, (Digraph.entryPoints graph.keys graph).contains vertex =
    (Digraph.entryPoints otherGraph.keys otherGraph).contains vertex
  zombies : ∀ vertex, (ZombieReport.zombieClusters graph).flatten.contains vertex =
    (ZombieReport.zombieClusters otherGraph).flatten.contains vertex
  packages : ∀ name, name ∈ PackageReport.importedPackages components catalog ↔
    name ∈ PackageReport.importedPackages others otherCatalog

/-- Records with texts and names, no two with one identifier, have a catalog and a call graph in
whatever order they come, and what is found does not depend on the order. -/
theorem sameFindings_of_perm {components others : List Component}
    (textual : ∀ component ∈ components, component.Textual)
    (named : ∀ component ∈ components, CallGraph.Named component)
    (distinct : (components.map Component.id).Nodup) (perm : components.Perm others) :
    ∃ catalog otherCatalog graph otherGraph,
      Catalog.ofComponents components = .ok catalog ∧
      Catalog.ofComponents others = .ok otherCatalog ∧
      CallGraph.ofComponents components catalog = .ok graph ∧
      CallGraph.ofComponents others otherCatalog = .ok otherGraph ∧
      SameFindings components others catalog otherCatalog graph otherGraph := by
  have otherTextual : ∀ component ∈ others, component.Textual := by
    intro component member
    exact textual component (perm.mem_iff.2 member)
  have otherNamed : ∀ component ∈ others, CallGraph.Named component := by
    intro component member
    exact named component (perm.mem_iff.2 member)
  rcases Catalog.exists_ofComponents textual with ⟨catalog, built⟩
  rcases Catalog.exists_ofComponents otherTextual with ⟨otherCatalog, otherBuilt⟩
  rcases CallGraph.exists_ofComponents named catalog with ⟨graph, graphBuilt⟩
  rcases CallGraph.exists_ofComponents otherNamed otherCatalog with ⟨otherGraph, otherGraphBuilt⟩
  have reordered : Reordered components others := ⟨distinct, perm⟩
  have imports := reordered.alike_dependencyGraph built otherBuilt
  have calls := reordered.alike_callGraph built otherBuilt graphBuilt otherGraphBuilt
  refine ⟨catalog, otherCatalog, graph, otherGraph, built, otherBuilt, graphBuilt, otherGraphBuilt,
    ?_⟩
  constructor
  · intro id
    rw [← List.contains_iff_mem, ← List.contains_iff_mem]
    exact imports.keys id
  · intro id target
    rw [← Digraph.edge_iff_mem, ← Digraph.edge_iff_mem]
    exact imports.edge id target
  · exact imports.findCycles_eq_nil_iff
  · exact calls.contains_entryPoints
  · intro vertex
    rw [Bool.eq_iff_iff, ZombieReport.contains_flatten_zombieClusters,
      ZombieReport.contains_flatten_zombieClusters]
    exact calls.stranded_iff vertex
  · exact reordered.mem_importedPackages_iff built otherBuilt

/-- Two files of one name, one of which imports the component that imports both, functions that call
each other, and a page that imports packages only. -/
def workshop : List Component :=
  [{ name := .text "Main", path := .text "src/Main.tsx",
     imports := [.text "./Button", .text "react"],
     functions := some [.text "start", .text "stop"],
     calls := some (Table.ofList [("start", [.text "stop"]), ("stop", [.text "start"])]) },
   { name := .text "Button", path := .text "src/ui/Button.tsx" },
   { name := .text "Button", path := .text "src/legacy/Button.tsx", imports := [.text "./Main"] },
   { name := .text "Page", path := .text "src/Page.tsx", imports := [.text "lodash/fp"] }]

def workshopCatalog : Catalog := (Catalog.ofComponents workshop).toOption.getD {}

def backwardsCatalog : Catalog := (Catalog.ofComponents workshop.reverse).toOption.getD {}

/-- Read backwards, the cycle is found at its other end. -/
theorem workshop_backwards :
    (∀ component ∈ workshop, component.Textual) ∧
    (∀ component ∈ workshop, CallGraph.Named component) ∧
    (workshop.map Component.id).Nodup ∧ workshop.Perm workshop.reverse ∧
    (∃ graph otherGraph,
      Catalog.ofComponents workshop = .ok workshopCatalog ∧
      Catalog.ofComponents workshop.reverse = .ok backwardsCatalog ∧
      CallGraph.ofComponents workshop workshopCatalog = .ok graph ∧
      CallGraph.ofComponents workshop.reverse backwardsCatalog = .ok otherGraph ∧
      SameFindings workshop workshop.reverse workshopCatalog backwardsCatalog graph otherGraph) ∧
    (DependencyGraph.ofComponents workshop workshopCatalog).findCycles =
      ([["src/Main.tsx#Main", "src/legacy/Button.tsx#Button"]] : List (List Text)) ∧
    (DependencyGraph.ofComponents workshop.reverse backwardsCatalog).findCycles =
      ([["src/legacy/Button.tsx#Button", "src/Main.tsx#Main"]] : List (List Text)) := by
  have textual : ∀ component ∈ workshop, component.Textual := by decide
  have named : ∀ component ∈ workshop, CallGraph.Named component := by decide
  have distinct : (workshop.map Component.id).Nodup := by decide
  have perm : workshop.Perm workshop.reverse := workshop.reverse_perm.symm
  rcases sameFindings_of_perm textual named distinct perm with
    ⟨catalog, otherCatalog, graph, otherGraph, built, otherBuilt, graphBuilt, otherGraphBuilt, same⟩
  -- The catalogs are named above so that the cycles can be computed.
  have isCatalog : workshopCatalog = catalog := by
    rw [workshopCatalog, built]
    rfl
  have isOther : backwardsCatalog = otherCatalog := by
    rw [backwardsCatalog, otherBuilt]
    rfl
  refine ⟨textual, named, distinct, perm, ?_, by decide +kernel, by decide +kernel⟩
  rw [isCatalog, isOther]
  exact ⟨graph, otherGraph, built, otherBuilt, graphBuilt, otherGraphBuilt, same⟩

end ImportAtlas.RecordOrder
