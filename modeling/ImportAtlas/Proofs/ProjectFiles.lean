import ImportAtlas.Proofs.PackageReport
import ImportAtlas.Proofs.Totality
import ImportAtlas.Report.Analysis

/-!
# Bad files of a project

The manifest and the configuration files of a project may hold anything. A file that cannot be
read, decoded or parsed gives a warning and contributes nothing, and the analysis goes on. Two
things about a manifest are not met that way and end the analysis: dependencies that are neither
an object nor a list of pairs, and nesting that is too deep to be read. Apart from the manifest
only a root with too long a path and a circle out of range keep a report from being made.
-/

namespace ImportAtlas

open Text

/-- Where the manifest of a project lies. -/
def Settings.manifestPath (settings : Settings) : PosixPath :=
  (PosixPath.ofText settings.projectPath).append Manifest.fileName

/-- The configuration files of a project. -/
def Settings.configFiles (settings : Settings) (tree : FileTree) : List PosixPath :=
  ConfigFiles.filesBelow tree (PosixPath.ofText settings.projectPath) settings.ignoredDirectories

/-! ## The manifest -/

namespace Manifest

/-- A name and a version as an item of a list. -/
inductive IsPair : Json → Prop where
  | items (name : Atom) (version : Json) : IsPair (.arr [.atom name, version])
  | fields (first second : Text × Json) : IsPair (.obj [first, second])
  | points (first second : CodePoint) : IsPair (.text [first, second])

/-- A value that dependencies can be read from. -/
def IsListing : Json → Prop
  | .atom value => value.isTruthy = false
  | .arr items => ∀ item ∈ items, IsPair item
  | .obj _ => True

/-- A field that may be absent. -/
def fieldOf (fields : List (Text × Json)) (name : Text) : Json := (fields.lookup name).getD .null

/-- What reading a manifest may come to without ending the analysis. -/
def Tolerable (includeDev : Bool) : Except Fault Json → Prop
  | .ok (.obj fields) =>
      IsListing (fieldOf fields "dependencies") ∧
        (includeDev = true → IsListing (fieldOf fields "devDependencies"))
  | .ok _ => True
  | .error fault => fault ≠ .tooDeep

theorem exists_pairOf_iff {item : Json} : (∃ pair, pairOf item = .ok pair) ↔ IsPair item := by
  constructor
  · rintro ⟨pair, paired⟩
    revert paired
    fun_cases pairOf item with
    | case1 name value =>
        intro paired
        rcases bind_eq_ok_iff.1 paired with ⟨atom, isName, -⟩
        cases name with
        | atom name => exact .items name value
        | arr items => cases isName
        | obj fields => cases isName
    | case2 => exact nofun
    | case3 name first value second => exact fun _ => .fields (name, first) (value, second)
    | case4 => exact nofun
    | case5 name value => exact fun _ => .points name value
    | case6 => exact nofun
    | case7 => exact nofun
  · intro isPair
    cases isPair with
    | items name version => exact ⟨(name, version), rfl⟩
    | fields first second => exact ⟨(.text first.1, .text second.1), rfl⟩
    | points first second => exact ⟨(.text [first], .text [second]), rfl⟩

theorem exists_dependencies_iff {value : Json} :
    (∃ pairs, dependencies value = .ok pairs) ↔ IsListing value := by
  cases value with
  | atom value =>
      cases truthy : value.isTruthy with
      | false =>
          exact ⟨fun _ => truthy, fun _ => ⟨[], by simp [dependencies, Json.isTruthy, truthy]⟩⟩
      | true => cases value <;> simp [dependencies, Json.isTruthy, IsListing, truthy]
  | arr items =>
      -- What is empty counts as absent before its form is looked at, so it is a case of its own.
      cases items with
      | nil => exact ⟨fun _ _ isItem => absurd isItem List.not_mem_nil, fun _ => ⟨[], rfl⟩⟩
      | cons item items =>
          simp only [IsListing, ← exists_pairOf_iff, ← exists_mapM_eq_ok_iff]
          rfl
  | obj fields =>
      cases fields with
      | nil => exact ⟨fun _ => trivial, fun _ => ⟨[], rfl⟩⟩
      | cons field fields => exact ⟨fun _ => trivial, fun _ => ⟨_, rfl⟩⟩

theorem exists_declared_iff {fields : List (Text × Json)} {includeDev : Bool} :
    (∃ table, declared (.obj fields) includeDev = .ok table) ↔
      IsListing (fieldOf fields "dependencies") ∧
        (includeDev = true → IsListing (fieldOf fields "devDependencies")) := by
  rw [← exists_dependencies_iff, ← exists_dependencies_iff]
  constructor
  · rintro ⟨table, read⟩
    rcases bind_eq_ok_iff.1 read with ⟨pairs, listed, read⟩
    refine ⟨⟨pairs, listed⟩, ?_⟩
    rintro rfl
    rcases bind_eq_ok_iff.1 read with ⟨devPairs, devListed, -⟩
    exact ⟨devPairs, devListed⟩
  · rintro ⟨⟨pairs, listed⟩, devListing⟩
    cases includeDev with
    | false => exact ⟨_, bind_eq_ok_iff.2 ⟨pairs, listed, rfl⟩⟩
    | true =>
        rcases devListing rfl with ⟨devPairs, devListed⟩
        exact ⟨_, bind_eq_ok_iff.2 ⟨pairs, listed, bind_eq_ok_iff.2 ⟨devPairs, devListed, rfl⟩⟩⟩

variable {host : Host} {tree : FileTree} {root : PosixPath} {includeDev : Bool}

theorem exists_read_iff :
    (∃ reading, read host tree root includeDev = .ok reading) ↔
      Tolerable includeDev (tree.readJson host.deepest (root.append fileName)) := by
  rw [read]
  cases tree.readJson host.deepest (root.append fileName) with
  | error fault => cases fault <;> simp [Tolerable]
  | ok manifest =>
      cases manifest with
      | atom value => exact ⟨fun _ => trivial, fun _ => ⟨_, rfl⟩⟩
      | arr items => exact ⟨fun _ => trivial, fun _ => ⟨_, rfl⟩⟩
      | obj fields =>
          rw [Tolerable, ← exists_declared_iff]
          cases names : declared (.obj fields) includeDev <;> simp [Except.map, names]

variable {reading : Reading}

/-- A manifest that can be read gives what it declares, any other one nothing and a warning. -/
theorem read_cases (isRead : read host tree root includeDev = .ok reading) :
    (∃ manifest, tree.readJson host.deepest (root.append fileName) = .ok manifest ∧
      declared manifest includeDev = .ok reading.declared ∧ reading.warnings = []) ∨
    ∃ fault, tree.readJson host.deepest (root.append fileName) = .error fault ∧
      reading.declared = ∅ ∧ reading.warnings = [warning host (root.append fileName) fault] := by
  revert isRead
  fun_cases read host tree root includeDev with
  | case1 path manifest parsed =>
      intro isRead
      cases names : declared manifest includeDev with
      | error fault => simp [names, Except.map] at isRead
      | ok table =>
          rw [names] at isRead
          cases isRead
          exact .inl ⟨manifest, parsed, names, rfl⟩
  | case2 path parsed => exact nofun
  | case3 path fault notDeep parsed =>
      rintro ⟨⟩
      exact .inr ⟨fault, parsed, rfl, rfl⟩

end Manifest

/-! ## Configuration files -/

namespace FileTree

/-- Neither a path nor one of its parts is too long. -/
def Fits (path : Text) : Prop :=
  (FileName.bytes path).length ≤ longestPath ∧
    ∀ part ∈ segments '/' path, FileName.isTooLong part = false

instance (path : Text) : Decidable (Fits path) := inferInstanceAs (Decidable (_ ∧ _))

variable {tree : FileTree}

theorem follow_ne_nameTooLong {part : Text} (fits : FileName.isTooLong part = false)
    (here : Place × FileEntry) : tree.follow here part ≠ .error .nameTooLong := by
  fun_cases follow tree here part <;> simp_all

theorem foldlM_follow_ne_nameTooLong {parts : List Text}
    (fits : ∀ part ∈ parts, FileName.isTooLong part = false) (here : Place × FileEntry) :
    parts.foldlM tree.follow here ≠ .error .nameTooLong := by
  induction parts generalizing here with
  | nil => exact nofun
  | cons part parts ih =>
      rw [List.foldlM_cons]
      cases followed : tree.follow here part with
      | error fault =>
          rintro ⟨⟩
          exact follow_ne_nameTooLong (fits part List.mem_cons_self) here followed
      | ok next => exact ih (fun other member => fits other (List.mem_cons_of_mem part member)) next

theorem checkPath_ne_nameTooLong {path : Text} (fits : Fits path) :
    checkPath path ≠ .error .nameTooLong := by
  have short : ¬ (FileName.bytes path).length > longestPath := Nat.not_lt.2 fits.1
  fun_cases checkPath path <;> simp_all

theorem resolve_ne_nameTooLong {path : Text} (fits : Fits path) :
    tree.resolve path ≠ .error .nameTooLong := by
  rw [resolve]
  cases checked : checkPath path with
  | error fault =>
      rintro ⟨⟩
      exact checkPath_ne_nameTooLong fits checked
  | ok _ => exact foldlM_follow_ne_nameTooLong fits.2 _

end FileTree

namespace ConfigFiles

variable {tree : FileTree} {root : PosixPath}

theorem isTooLong_eq_false {path : PosixPath} (fits : FileTree.Fits path.text) :
    isTooLong tree path = false := by
  fun_cases isTooLong tree path with
  | case1 tooLong => exact absurd tooLong (FileTree.resolve_ne_nameTooLong fits)
  | case2 => rfl

/-- Where the root and all names that are looked for in it fit, no tree makes a path too long. -/
theorem checkRoot_eq_ok (tree : FileTree) (rootFits : FileTree.Fits root.text)
    (filesFit : ∀ pattern ∈ expanded, pattern.contains '*' = false →
      FileTree.Fits (root.append pattern).text) :
    checkRoot tree root = .ok () := by
  have noFile : ((expanded.filter fun pattern => !pattern.contains '*').map root.append).any
      (isTooLong tree) = false := by
    rw [List.any_eq_false]
    intro path isCandidate
    rcases List.mem_map.1 isCandidate with ⟨pattern, kept, rfl⟩
    rcases List.mem_filter.1 kept with ⟨isPattern, noStar⟩
    rw [isTooLong_eq_false (filesFit pattern isPattern (by simpa using noStar))]
    exact Bool.false_ne_true
  rw [checkRoot, isTooLong_eq_false rootFits, noFile, Bool.and_false, Bool.or_false]
  rfl

/-- The root that is taken unless another is given is too long in no tree. -/
theorem checkRoot_default (tree : FileTree) :
    checkRoot tree (PosixPath.ofText ({} : Settings).projectPath) = .ok () := by
  apply checkRoot_eq_ok tree
  · decide +kernel
  · decide +kernel

variable {host : Host} {ignored : List Text}

theorem exists_use_iff :
    (∃ used, use host tree root ignored = .ok used) ↔ checkRoot tree root = .ok () := by
  rw [use, find]
  cases checkRoot tree root with
  | error fault => exact ⟨fun ⟨_, used⟩ => (nomatch used), nofun⟩
  | ok _ => exact ⟨fun _ => rfl, fun _ => ⟨_, rfl⟩⟩

theorem mem_packages_useOf_iff {path : PosixPath} {name : Text} :
    name ∈ (useOf host tree path).packages ↔
      ∃ text, tree.readText path = .ok text ∧ name ∈ References.packages text := by
  rw [useOf]
  cases tree.readText path with
  | ok text => simp
  | error fault => simp

/-- The warnings about files, one for each file that cannot be read. -/
def warningsAbout (host : Host) (tree : FileTree) (paths : List PosixPath) : List Text :=
  paths.filterMap fun path => (fault? (tree.readText path)).map (warning host path)

theorem flatMap_warnings_useOf (host : Host) (tree : FileTree) (paths : List PosixPath) :
    paths.flatMap (fun path => (useOf host tree path).warnings) =
      warningsAbout host tree paths := by
  induction paths with
  | nil => rfl
  | cons path paths ih =>
      rw [List.flatMap_cons, ih]
      simp only [useOf, warningsAbout, List.filterMap_cons]
      cases tree.readText path with
      | ok text => rfl
      | error fault => rfl

/-- The files that can be read use packages, and each of the others gives one warning. -/
theorem use_eq_ok {used : Use} (isUsed : use host tree root ignored = .ok used) :
    (∀ name, name ∈ used.packages ↔ ∃ path ∈ filesBelow tree root ignored, ∃ text,
      tree.readText path = .ok text ∧ name ∈ References.packages text) ∧
    used.warnings = warningsAbout host tree (host.finished (filesBelow tree root ignored)) := by
  rcases bind_eq_ok_iff.1 isUsed with ⟨paths, found, isUsed⟩
  rcases bind_eq_ok_iff.1 found with ⟨_, -, ⟨⟩⟩
  cases isUsed
  refine ⟨?_, flatMap_warnings_useOf host tree _⟩
  intro name
  simp only [List.mem_eraseDups, List.mem_flatMap, mem_packages_useOf_iff]

end ConfigFiles

/-! ## The analysis -/

namespace Analysis

/-- What the files of a project contribute to its analysis: those that can be read their packages,
each of the others a warning and nothing else. -/
structure Contribution (host : Host) (tree : FileTree) (settings : Settings)
    (declared : Table Atom Json) (configured warnings : List Text) : Prop where
  declares : ∀ manifest, tree.readJson host.deepest settings.manifestPath = .ok manifest →
    Manifest.declared manifest settings.includeDev = .ok declared
  /-- Only an object declares packages. -/
  declaresNothing :
    (∀ fields, tree.readJson host.deepest settings.manifestPath ≠ .ok (.obj fields)) → declared = ∅
  configures : ∀ name, name ∈ configured ↔ ∃ path ∈ settings.configFiles tree, ∃ text,
    tree.readText path = .ok text ∧ name ∈ References.packages text
  /-- The warning about the manifest comes first. The others come in the order in which the host is
  done with the files, which may be any. -/
  warns : ∃ inOrder : List PosixPath, inOrder.Perm (settings.configFiles tree) ∧ warnings =
    ((fault? (tree.readJson host.deepest settings.manifestPath)).map
      (Manifest.warning host settings.manifestPath)).toList ++
    ConfigFiles.warningsAbout host tree inOrder

variable {host : Host} {tree : FileTree} {settings : Settings}

theorem contribution_of_read {reading : Manifest.Reading} {used : ConfigFiles.Use}
    (isRead : Manifest.read host tree (PosixPath.ofText settings.projectPath) settings.includeDev =
      .ok reading)
    (isUsed : ConfigFiles.use host tree (PosixPath.ofText settings.projectPath)
      settings.ignoredDirectories = .ok used) :
    Contribution host tree settings reading.declared used.packages
      (reading.warnings ++ used.warnings) := by
  rcases ConfigFiles.use_eq_ok isUsed with ⟨configures, configWarns⟩
  rcases Manifest.read_cases isRead with ⟨manifest, parsed, declares, noWarning⟩ |
    ⟨fault, failed, noName, manifestWarns⟩
  · have parsed : tree.readJson host.deepest settings.manifestPath = .ok manifest := parsed
    refine ⟨?_, ?_, configures, ?_⟩
    · intro other otherParsed
      rw [parsed] at otherParsed
      cases otherParsed
      exact declares
    · intro noObject
      cases manifest with
      | atom value => exact (Except.ok.inj declares).symm
      | arr items => exact (Except.ok.inj declares).symm
      | obj fields => exact absurd parsed (noObject fields)
    · refine ⟨_, host.finished_perm _, ?_⟩
      rw [noWarning, configWarns, parsed]
      rfl
  · have failed : tree.readJson host.deepest settings.manifestPath = .error fault := failed
    refine ⟨?_, fun _ => noName, configures, ?_⟩
    · intro manifest parsed
      rw [failed] at parsed
      cases parsed
    · refine ⟨_, host.finished_perm _, ?_⟩
      rw [manifestWarns, configWarns, failed]
      rfl

theorem packages_eq_ok_iff {components : List Component} {catalog : Catalog}
    {report : PackageReport} :
    PackageReport.ofProject components catalog settings host tree = .ok report ↔
      ∃ reading used,
        Manifest.read host tree (PosixPath.ofText settings.projectPath) settings.includeDev =
          .ok reading ∧
        ConfigFiles.use host tree (PosixPath.ofText settings.projectPath)
          settings.ignoredDirectories = .ok used ∧
        report = PackageReport.compare reading.declared
          (PackageReport.importedPackages components catalog) used.packages
          (reading.warnings ++ used.warnings) := by
  rw [PackageReport.ofProject]
  constructor
  · intro made
    rcases bind_eq_ok_iff.1 made with ⟨reading, isRead, made⟩
    rcases bind_eq_ok_iff.1 made with ⟨used, isUsed, made⟩
    exact ⟨reading, used, isRead, isUsed, (Except.ok.inj made).symm⟩
  · rintro ⟨reading, used, isRead, isUsed, rfl⟩
    exact bind_eq_ok_iff.2 ⟨reading, isRead, bind_eq_ok_iff.2 ⟨used, isUsed, rfl⟩⟩

theorem ofProject_eq_ok_iff {components : List Component} {catalog : Catalog}
    {analysis : Analysis} :
    ofProject components catalog settings host tree = .ok analysis ↔
      PackageReport.ofProject components catalog settings host tree = .ok analysis.packages ∧
      CycleReport.ofGraph (DependencyGraph.ofComponents components catalog) catalog settings =
        .ok analysis.cycles ∧
      ZombieReport.ofComponents components catalog settings = .ok analysis.zombies := by
  rw [ofProject]
  constructor
  · intro made
    rcases bind_eq_ok_iff.1 made with ⟨packages, packagesMade, made⟩
    rcases bind_eq_ok_iff.1 made with ⟨cycles, cyclesMade, made⟩
    rcases bind_eq_ok_iff.1 made with ⟨zombies, zombiesMade, made⟩
    cases made
    exact ⟨packagesMade, cyclesMade, zombiesMade⟩
  · rintro ⟨packagesMade, cyclesMade, zombiesMade⟩
    exact bind_eq_ok_iff.2 ⟨_, packagesMade, bind_eq_ok_iff.2 ⟨_, cyclesMade,
      bind_eq_ok_iff.2 ⟨_, zombiesMade, rfl⟩⟩⟩

/-- What has to hold of a project for its analysis to be made. -/
structure Possible (host : Host) (tree : FileTree) (settings : Settings)
    (graph : Digraph Text) : Prop where
  manifest :
    Manifest.Tolerable settings.includeDev (tree.readJson host.deepest settings.manifestPath)
  root : ConfigFiles.checkRoot tree (PosixPath.ofText settings.projectPath) = .ok ()
  circle : graph.findCycles = [] ∨ settings.Drawable

theorem exists_ofProject_iff {components : List Component}
    (named : ∀ component ∈ components, CallGraph.Named component) (catalog : Catalog) :
    (∃ analysis, ofProject components catalog settings host tree = .ok analysis) ↔
      Possible host tree settings (DependencyGraph.ofComponents components catalog) := by
  constructor
  · rintro ⟨analysis, made⟩
    rcases ofProject_eq_ok_iff.1 made with ⟨packagesMade, cyclesMade, -⟩
    rcases packages_eq_ok_iff.1 packagesMade with ⟨reading, used, isRead, isUsed, -⟩
    refine ⟨Manifest.exists_read_iff.1 ⟨reading, isRead⟩,
      ConfigFiles.exists_use_iff.1 ⟨used, isUsed⟩, ?_⟩
    by_contra notPlaceable
    rcases not_or.1 notPlaceable with ⟨found, notDrawable⟩
    rw [CycleReport.ofGraph_eq_error catalog found notDrawable] at cyclesMade
    cases cyclesMade
  · -- The report on zombies needs nothing of the project, its graph is made from any records.
    rintro ⟨tolerable, rootChecked, placeable⟩
    rcases Manifest.exists_read_iff.2 tolerable with ⟨reading, isRead⟩
    rcases ConfigFiles.exists_use_iff.2 rootChecked with ⟨used, isUsed⟩
    rcases CycleReport.exists_ofGraph_named catalog placeable with ⟨cycles, cyclesMade, -⟩
    rcases CallGraph.exists_ofComponents named catalog with ⟨graph, built⟩
    exact ⟨⟨cycles, _, _⟩, ofProject_eq_ok_iff.2
      ⟨packages_eq_ok_iff.2 ⟨reading, used, isRead, isUsed, rfl⟩, cyclesMade,
        ZombieReport.ofComponents_eq_ok built settings⟩⟩

/-- With the default settings only the manifest can keep an analysis from being made. -/
theorem possible_default_iff {graph : Digraph Text} :
    Possible host tree {} graph ↔
      Manifest.Tolerable false (tree.readJson host.deepest ({} : Settings).manifestPath) :=
  ⟨Possible.manifest, fun tolerable =>
    ⟨tolerable, ConfigFiles.checkRoot_default tree, .inr Settings.drawable_default⟩⟩

/-- Records with texts have a catalog, and with any catalog, whatever the files of a project hold
and on whatever host, an analysis is made exactly if the manifest can be tolerated, the root is not
too long and the circle can be placed; the last two always hold with the default settings. Files
that cannot be read give warnings and contribute no packages, and the packages are accounted for
with what the others contribute. The reports on cycles and on zombies do not depend on the files. -/
theorem bad_files_give_warnings {components : List Component}
    (textual : ∀ component ∈ components, component.Textual)
    (named : ∀ component ∈ components, CallGraph.Named component) :
    (∃ catalog, Catalog.ofComponents components = .ok catalog) ∧
    ∀ (catalog : Catalog) (host : Host) (tree : FileTree),
      ((∃ analysis, ofProject components catalog {} host tree = .ok analysis) ↔
        Manifest.Tolerable false (tree.readJson host.deepest ({} : Settings).manifestPath)) ∧
      ∀ settings : Settings,
        ((∃ analysis, ofProject components catalog settings host tree = .ok analysis) ↔
          Possible host tree settings (DependencyGraph.ofComponents components catalog)) ∧
        ∀ analysis, ofProject components catalog settings host tree = .ok analysis →
          CycleReport.ofGraph (DependencyGraph.ofComponents components catalog) catalog settings =
            .ok analysis.cycles ∧
          ZombieReport.ofComponents components catalog settings = .ok analysis.zombies ∧
          ∃ declared configured,
            Contribution host tree settings declared configured analysis.packages.warnings ∧
            PackageReport.Accounts components catalog declared configured analysis.packages := by
  refine ⟨Catalog.exists_ofComponents textual, ?_⟩
  intro catalog host tree
  refine ⟨(exists_ofProject_iff named catalog).trans possible_default_iff, ?_⟩
  intro settings
  refine ⟨exists_ofProject_iff named catalog, ?_⟩
  intro analysis made
  rcases ofProject_eq_ok_iff.1 made with ⟨packagesMade, cyclesMade, zombiesMade⟩
  rcases packages_eq_ok_iff.1 packagesMade with ⟨reading, used, isRead, isUsed, compared⟩
  refine ⟨cyclesMade, zombiesMade, reading.declared, used.packages, ?_⟩
  rw [compared]
  exact ⟨contribution_of_read isRead isUsed, PackageReport.accounts_compare components catalog
    reading.declared used.packages (reading.warnings ++ used.warnings)⟩

/-- A project in which the manifest and one of two configuration files are not encoded. -/
def spoiled : FileTree where
  entries := Table.ofList
    [(⟨false, ["package.json"]⟩, .file ⟨#[0xff]⟩),
     (⟨false, ["next.config.js"]⟩, .file ⟨#[0xfe]⟩),
     (⟨false, ["vite.config.ts"]⟩, .file "require('knex')".toUTF8)]

def spoiledFiles : List PosixPath := [.ofText "vite.config.ts", .ofText "next.config.js"]

def spoiledWarnings : List Text :=
  ["Could not read package.json: no UTF-8",
   "Error processing config file next.config.js: no UTF-8"]

/-- Two files cannot be read, and there is a report with two warnings. -/
theorem spoiled_gives_warnings :
    (∀ component ∈ [PackageReport.cook], component.Textual) ∧
    (∀ component ∈ [PackageReport.cook], CallGraph.Named component) ∧
    ∃ catalog analysis, Catalog.ofComponents [PackageReport.cook] = .ok catalog ∧
      ofProject [PackageReport.cook] catalog {} (.sequential none) spoiled = .ok analysis ∧
      analysis.packages.warnings = spoiledWarnings ∧ analysis.packages.unused = [] := by
  have textual : ∀ component ∈ [PackageReport.cook], component.Textual := by decide +kernel
  have named : ∀ component ∈ [PackageReport.cook], CallGraph.Named component := by decide +kernel
  have undecodable : spoiled.readJson (Host.sequential none).deepest
      ({} : Settings).manifestPath = .error .undecodable :=
    fault?_eq_some_iff.1 (by decide +kernel)
  rcases bad_files_give_warnings textual named with ⟨⟨catalog, built⟩, always⟩
  rcases always catalog (.sequential none) spoiled with ⟨returns, reports⟩
  obtain ⟨analysis, made⟩ := returns.2 (by rw [undecodable]; exact nofun)
  rcases (reports {}).2 analysis made with ⟨-, -, declared, configured, contribution, accounts⟩
  refine ⟨textual, named, catalog, analysis, built, made, ?_, ?_⟩
  · rcases contribution.warns with ⟨inOrder, reordered, warns⟩
    have alone : ({} : Settings).configFiles spoiled = spoiledFiles := by decide +kernel
    have remaining : (ConfigFiles.warningsAbout (.sequential none) spoiled inOrder).Perm
        [ofString "Error processing config file next.config.js: no UTF-8"] := by
      rw [alone] at reordered
      exact (reordered.filterMap _).trans (by decide +kernel)
    rw [warns, List.perm_singleton.1 remaining, undecodable]
    decide +kernel
  · have noName : declared = ∅ := contribution.declaresNothing (by simp [undecodable])
    have inOrder := accounts.inOrder
    rw [noName] at inOrder
    exact List.sublist_nil.1 inOrder

/-- A project whose manifest has a text where the dependencies belong. -/
def misstated : FileTree where
  entries := Table.ofList
    [(⟨false, ["package.json"]⟩, .file "\x7b\"dependencies\": \"react\"\x7d".toUTF8)]

/-- A text for dependencies ends the analysis instead of giving a warning. -/
theorem text_for_dependencies_fails :
    ∃ catalog, Catalog.ofComponents [] = .ok catalog ∧
      ofProject [] catalog {} (.sequential none) misstated = .error .notPair := by
  have computed : (Catalog.ofComponents []).toOption.map
      (fun catalog => fault? (ofProject [] catalog {} (.sequential none) misstated)) =
        some (some .notPair) := by
    decide +kernel
  rcases Option.map_eq_some_iff.1 computed with ⟨catalog, built, failed⟩
  exact ⟨catalog, toOption_eq_some_iff.1 built, fault?_eq_some_iff.1 failed⟩

end Analysis

end ImportAtlas
