import ImportAtlas.Proofs.Except
import ImportAtlas.Proofs.PackageImports
import ImportAtlas.Proofs.Table

/-!
# The report on packages accounts for every import

Each import that means a package has one package name. It is declared, built into the platform, or
listed as missing, once. A declared package is listed as unused exactly if it is the package of no
import, no configuration file uses it, and no exemption covers it. What is said of names here is
said of the imports themselves, not of what was collected from them on the way.
-/

namespace ImportAtlas

open Text

/-! ## Names among scalars -/

theorem Atom.contains_texts_iff {texts : List Text} {name : Atom} :
    (texts.map Atom.text).contains name = true ↔ ∃ text ∈ texts, name = .text text := by
  rw [List.contains_iff_exists_mem_beq]
  constructor
  · rintro ⟨other, member, equal⟩
    rcases List.mem_map.1 member with ⟨text, isText, rfl⟩
    exact ⟨text, isText, eq_of_beq_text equal⟩
  · rintro ⟨text, isText, rfl⟩
    exact ⟨.text text, List.mem_map_of_mem isText, BEq.refl _⟩

/-- Only a text is equal to a text, so looking one up finds it exactly if it is among the keys. -/
theorem Table.contains_text_iff {ν : Type} {table : Table Atom ν} {name : Text} :
    table.contains (.text name) = true ↔ .text name ∈ table.keys := by
  rw [contains_eq_contains_keys, List.contains_iff_exists_mem_beq]
  constructor
  · rintro ⟨other, isKey, equal⟩
    rw [← Atom.eq_of_beq_text (BEq.symm equal)]
    exact isKey
  · intro isKey
    exact ⟨_, isKey, BEq.refl _⟩

namespace PackageReport

variable {components : List Component} {catalog : Catalog} {declared : Table Atom Json}
  {configured : List Text}

/-! ## Imported packages -/

/-- Some component has an import that means a package of this name. -/
def Imports (components : List Component) (catalog : Catalog) (name : Text) : Prop :=
  ∃ component ∈ components, ∃ specifier : Text, .text specifier ∈ component.imports ∧
    catalog.isExternal specifier = true ∧ Specifier.packageName? specifier = some name

/-- An import is counted under a name exactly if it means a package of this name. -/
theorem packageOf?_eq_some_iff {specifier : Json} {name : Text} :
    packageOf? catalog specifier = some name ↔
      ∃ text : Text, specifier = .text text ∧ catalog.isExternal text = true ∧
        Specifier.packageName? text = some name := by
  constructor
  · intro counted
    fun_cases packageOf? catalog specifier with
    | case1 text external =>
        rw [packageOf?, if_pos external, References.package?_eq_some_iff] at counted
        exact ⟨text, rfl, external, counted.1⟩
    | case2 text internal => simp [packageOf?, internal] at counted
    | case3 specifier noText => simp [packageOf?] at counted
  · rintro ⟨text, rfl, external, named⟩
    rcases Specifier.exists_packageName? (Catalog.looksLikePackage_of_isExternal external) with
      ⟨other, otherNamed, given, noPath⟩
    rw [named, Option.some.injEq] at otherNamed
    subst otherNamed
    exact packageOf?_eq_some external named given noPath

theorem mem_importedPackages_iff {name : Text} :
    name ∈ importedPackages components catalog ↔ Imports components catalog name := by
  rw [importedPackages, List.mem_eraseDups, List.mem_filterMap]
  simp only [List.mem_flatMap, packageOf?_eq_some_iff]
  constructor
  · rintro ⟨specifier, ⟨component, isComponent, imported⟩, text, rfl, external, named⟩
    exact ⟨component, isComponent, text, imported, external, named⟩
  · rintro ⟨component, isComponent, text, imported, external, named⟩
    exact ⟨.text text, ⟨component, isComponent, imported⟩, text, rfl, external, named⟩

theorem nodup_importedPackages (components : List Component) (catalog : Catalog) :
    (importedPackages components catalog).Nodup :=
  (distinct_eraseDups _).nodup

/-! ## Missing and unused packages -/

theorem mem_missingPackages_iff {imported : List Text} {name : Text} :
    name ∈ missingPackages declared imported ↔
      name ∈ imported ∧ .text name ∉ declared.keys ∧ Package.isBuiltin name = false := by
  rw [missingPackages, mem_sorted, List.mem_filter, ← Table.contains_text_iff]
  simp

theorem pairwise_missingPackages {imported : List Text} (nodup : imported.Nodup) :
    (missingPackages declared imported).Pairwise Before :=
  pairwise_before_sorted (nodup.filter _)

theorem isExempt_iff {name : Atom} :
    isExempt name = true ↔
      ∃ text, name = .text text ∧
        (Package.isSpecial text = true ∨ Package.isDevTool text = true) := by
  cases name <;> simp [isExempt]

/-- A declared name is unused unless it is a text that is used somewhere or exempt. -/
theorem mem_unusedPackages_iff {imported : List Text} {name : Atom} :
    name ∈ unusedPackages declared imported configured ↔
      name ∈ declared.keys ∧ ∀ text, name = .text text →
        text ∉ imported ∧ text ∉ configured ∧
          Package.isSpecial text = false ∧ Package.isDevTool text = false := by
  rw [unusedPackages, List.mem_filter]
  simp only [Bool.and_eq_true, Bool.not_eq_true', ← Bool.not_eq_true, isExempt_iff,
    Atom.contains_texts_iff]
  grind

/-- What a report on packages has to say about imports, declared and configured packages. -/
structure Accounts (components : List Component) (catalog : Catalog) (declared : Table Atom Json)
    (configured : List Text) (report : PackageReport) : Prop where
  missing : ∀ name, name ∈ report.missing ↔
    Imports components catalog name ∧ .text name ∉ declared.keys ∧ Package.isBuiltin name = false
  /-- Missing packages are in the order of their code points, each once. -/
  increasing : report.missing.Pairwise Before
  /-- Unused packages are in the order of declaration. -/
  inOrder : report.unused.Sublist declared.keys
  unused : ∀ name, name ∈ report.unused ↔
    name ∈ declared.keys ∧ ∀ text, name = .text text →
      ¬ Imports components catalog text ∧ text ∉ configured ∧
        Package.isSpecial text = false ∧ Package.isDevTool text = false
  /-- No import of a package is lost. -/
  accounted : ∀ component ∈ components, ∀ specifier : Text, .text specifier ∈ component.imports →
    catalog.isExternal specifier = true →
    ∃ name, Specifier.packageName? specifier = some name ∧
      (.text name ∈ declared.keys ∨ Package.isBuiltin name = true ∨ report.missing.count name = 1)

theorem accounts_compare (components : List Component) (catalog : Catalog)
    (declared : Table Atom Json) (configured warnings : List Text) :
    Accounts components catalog declared configured
      (compare declared (importedPackages components catalog) configured warnings) := by
  have missing : ∀ name, name ∈ missingPackages declared (importedPackages components catalog) ↔
      Imports components catalog name ∧ .text name ∉ declared.keys ∧
        Package.isBuiltin name = false := by
    intro name
    rw [mem_missingPackages_iff, mem_importedPackages_iff]
  have increasing : (missingPackages declared (importedPackages components catalog)).Pairwise
      Before :=
    pairwise_missingPackages (nodup_importedPackages components catalog)
  refine ⟨missing, increasing, List.filter_sublist, ?_, ?_⟩
  · intro name
    simp only [compare, mem_unusedPackages_iff, mem_importedPackages_iff]
  · intro component isComponent specifier imported external
    rcases Specifier.exists_packageName? (Catalog.looksLikePackage_of_isExternal external) with
      ⟨name, named, -, -⟩
    refine ⟨name, named, ?_⟩
    by_cases known : .text name ∈ declared.keys
    · exact .inl known
    · cases builtin : Package.isBuiltin name with
      | true => exact .inr (.inl rfl)
      | false =>
          have listed := (missing name).2
            ⟨⟨component, isComponent, specifier, imported, external, named⟩, known, builtin⟩
          exact .inr (.inr (List.count_eq_one_of_mem (increasing.imp Before.ne) listed))

/-- Once the manifest and the configuration files are read, there is a report, and it accounts for
all imports and all declared packages. -/
theorem report_accounts_for_imports (components : List Component) (catalog : Catalog)
    (settings : Settings) {host : Host} {tree : FileTree} {manifest : Manifest.Reading}
    {configured : ConfigFiles.Use}
    (manifestRead : Manifest.read host tree (PosixPath.ofText settings.projectPath)
      settings.includeDev = .ok manifest)
    (configRead : ConfigFiles.use host tree (PosixPath.ofText settings.projectPath)
      settings.ignoredDirectories = .ok configured) :
    ∃ report, ofProject components catalog settings host tree = .ok report ∧
      Accounts components catalog manifest.declared configured.packages report := by
  refine ⟨_, ?_, accounts_compare components catalog manifest.declared configured.packages
    (manifest.warnings ++ configured.warnings)⟩
  rw [ofProject, manifestRead, configRead]
  rfl

/-- A project with a manifest and one configuration file. -/
def larder : FileTree where
  entries := Table.ofList
    [(⟨false, ["package.json"]⟩, .file
      "\x7b\"dependencies\":\x7b\"zod\":\"3\",\"knex\":\"2\",\"yup\":\"1\"\x7d\x7d".toUTF8),
     (⟨false, ["next.config.js"]⟩, .file "require('knex')".toUTF8)]

def cook : Component where
  name := .text "Cook"
  path := .text "Cook.tsx"
  imports := [.text "fs", .text "@mui/icons/Shelf", .text "zod/v4", .text "./Cook"]

/-- One package is imported without being declared, one is built in. Of the three that are declared
one is imported, so that it is not missing, the configuration uses another, and the third is
unused. -/
theorem larder_report_accounts :
    ∃ report, ofProject [cook] {} {} (.sequential none) larder = .ok report ∧
      report.missing.count (ofString "@mui/icons") = 1 ∧ ofString "fs" ∉ report.missing ∧
      ofString "zod" ∉ report.missing ∧ .text "zod" ∉ report.unused ∧
      .text "knex" ∉ report.unused ∧ .text "yup" ∈ report.unused := by
  have declares :
      (Manifest.read (.sequential none) larder (PosixPath.ofText ".") false).toOption.map
        (fun manifest => manifest.declared.keys) =
      some ([ofString "zod", ofString "knex", ofString "yup"].map Atom.text) := by
    decide +kernel
  have configures : (ConfigFiles.use (.sequential none) larder (PosixPath.ofText ".")
      ({} : Settings).ignoredDirectories).toOption.map (fun configured => configured.packages) =
      some [ofString "knex"] := by
    decide +kernel
  have imports : importedPackages [cook] {} =
      [ofString "fs", ofString "@mui/icons", ofString "zod"] := by
    decide +kernel
  rcases Option.map_eq_some_iff.1 declares with ⟨manifest, manifestRead, keys⟩
  rcases Option.map_eq_some_iff.1 configures with ⟨configured, configRead, packages⟩
  rcases report_accounts_for_imports [cook] {} {} (toOption_eq_some_iff.1 manifestRead)
    (toOption_eq_some_iff.1 configRead) with ⟨report, made, accounts⟩
  have missing := accounts.missing
  have unused := fun name : Text => accounts.unused (.text name)
  have textInjective : Function.Injective Atom.text := fun _ _ => Atom.text.inj
  simp only [keys, packages, imports, ← mem_importedPackages_iff, Atom.text.injEq, forall_eq',
    List.mem_map_of_injective textInjective] at missing unused
  have listed : ofString "@mui/icons" ∈ report.missing := (missing _).2 (by decide +kernel)
  refine ⟨report, made, List.count_eq_one_of_mem (accounts.increasing.imp Before.ne) listed, ?_⟩
  simp only [missing, unused]
  decide +kernel

end PackageReport

end ImportAtlas
