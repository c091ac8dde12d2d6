import ImportAtlas.Proofs.Specifier
import ImportAtlas.Proofs.Distinct
import ImportAtlas.Report.Packages

/-!
# Packages and project code

An import means a package or files of the project, never both. What looks like a package has a
package name, which is made of the leading pieces of the specifier and is no path. So imports of
packages are all counted, each under the name of its package, and imports of files are not.
-/

namespace ImportAtlas

open Text

namespace Specifier

/-! ## Package names -/

/-- A package is named by leading pieces of the specifier. -/
theorem packageName?_eq_join {specifier name : Text} (named : packageName? specifier = some name) :
    ∃ front rest, front ≠ [] ∧ segments '/' (clean specifier) = front ++ rest ∧
      name = join [.char '/'] front := by
  rw [packageName?] at named
  split at named
  · cases named
  · split at named
    · rename_i scope package others cut
      split at named
      · rcases Option.some.inj named with rfl
        exact ⟨[scope, package], others, by simp, cut, by simp [join, Text.ofString]⟩
      · rcases Option.some.inj named with rfl
        exact ⟨[scope], package :: others, by simp, cut, rfl⟩
    · rename_i package cut
      rcases Option.some.inj named with rfl
      exact ⟨[package], [], by simp, cut, rfl⟩
    · cases named

/-- The name ends where the specifier ends, or before a slash. -/
theorem eq_or_prefix_of_packageName? {specifier name : Text}
    (named : packageName? specifier = some name) :
    clean specifier = name ∨ name ++ [.char '/'] <+: clean specifier := by
  rcases packageName?_eq_join named with ⟨front, rest, given, cut, rfl⟩
  exact eq_or_prefix_of_segments given cut

/-- What begins with a slash is a path, so no name is empty. -/
theorem packageName?_ne_nil {specifier name : Text} (named : packageName? specifier = some name) :
    name ≠ [] := by
  rintro rfl
  have empty := eq_or_prefix_of_packageName? named
  rw [packageName?] at named
  split at named
  · cases named
  · rename_i noPath
    simp only [Bool.or_eq_true, decide_eq_true_eq, not_or] at noPath
    cases empty with
    | inl nothing => exact noPath.1.1 nothing
    | inr slash => exact noPath.2 (List.isPrefixOf_iff_prefix.2 slash)

theorem packageName?_clean (specifier : Text) :
    packageName? (clean specifier) = packageName? specifier := by
  rw [packageName?, clean_clean, packageName?]

/-- All aliases hold a slash. -/
theorem isPathAlias_of_slashless {name : Text} (slashless : .char '/' ∉ name) :
    isPathAlias name = false := by
  have slashes : ∀ start ∈ aliasStarts, .char '/' ∈ start := by decide
  rw [isPathAlias, List.any_eq_false]
  intro start isStart begins
  exact slashless ((List.isPrefixOf_iff_prefix.1 begins).subset (slashes start isStart))

/-- Only relative and absolute paths and nothing at all have no package name. -/
theorem packageName?_of_begins {specifier : Text} {first : CodePoint} {rest : Text}
    (begins : clean specifier = first :: rest) (noDot : first ≠ .char '.')
    (noSlash : first ≠ .char '/') :
    packageName? specifier =
      match segments '/' (clean specifier) with
      | scope :: package :: _ =>
          if startsWith scope "@" && package ≠ [] then some (scope ++ "/" ++ package)
          else some scope
      | [package] => some package
      | [] => none := by
  have noPath : (clean specifier = [] || startsWith (clean specifier) "." ||
      startsWith (clean specifier) "/") = false := by
    simp [begins, startsWith, Text.ofString, List.isPrefixOf, noDot.symm, noSlash.symm]
  rw [packageName?, noPath]
  rfl

/-- Without a scope the first piece names a package. -/
theorem packageName?_unscoped {specifier : Text} {first : CodePoint} {rest : Text}
    (begins : firstSegment '/' (clean specifier) = first :: rest) (noDot : first ≠ .char '.')
    (noScope : first ≠ .char '@') : packageName? specifier = some (first :: rest) := by
  have noSlash : first ≠ .char '/' := by
    have free := notMem_of_mem_segments (firstSegment_mem_segments '/' (clean specifier))
    rw [begins, List.mem_cons, not_or] at free
    exact Ne.symm free.1
  rcases firstSegment_isPrefix '/' (clean specifier) with ⟨behind, whole⟩
  rw [begins, List.cons_append] at whole
  rw [packageName?_of_begins whole.symm noDot noSlash]
  have isHead := head?_segments '/' (clean specifier)
  rw [begins] at isHead
  cases cut : segments '/' (clean specifier) with
  | nil => exact absurd cut (segments_ne_nil _ _)
  | cons scope others =>
      rw [cut, List.head?_cons, Option.some.injEq] at isHead
      subst isHead
      cases others with
      | nil => rfl
      | cons package others => simp [startsWith, Text.ofString, List.isPrefixOf, noScope.symm]

/-- A scope and a package behind it name a package. -/
theorem packageName?_scoped {specifier rest scope package : Text} {others : List Text}
    (begins : clean specifier = .char '@' :: rest)
    (cut : segments '/' (clean specifier) = (.char '@' :: scope) :: package :: others)
    (given : package ≠ []) :
    packageName? specifier = some (.char '@' :: scope ++ "/" ++ package) := by
  rw [packageName?_of_begins begins (by decide) (by decide), cut]
  simp [startsWith, Text.ofString, List.isPrefixOf, given]

theorem isPathAlias_of_scoped {second : CodePoint} (noSlash : second ≠ .char '/') (rest : Text) :
    isPathAlias (.char '@' :: second :: rest) = false := by
  simp [isPathAlias, aliasStarts, startsWith, Text.ofString, List.isPrefixOf, noSlash.symm]

/-- What looks like a package has a name, which is no path. -/
theorem exists_packageName? {specifier : Text}
    (looks : looksLikePackage (clean specifier) = true) :
    ∃ name, packageName? specifier = some name ∧ name ≠ [] ∧ isPathAlias name = false := by
  rw [looksLikePackage] at looks
  split at looks
  · rename_i isScoped
    rcases List.isPrefixOf_iff_prefix.1 isScoped with ⟨rest, begins⟩
    replace begins : clean specifier = .char '@' :: rest := begins.symm
    split at looks
    · rename_i piece package others cut
      have isPiece : piece = .char '@' :: firstSegment '/' rest := by
        have isHead := head?_segments '/' (clean specifier)
        rw [cut, List.head?_cons, begins, Option.some.injEq] at isHead
        rw [isHead]
        simp [firstSegment]
      have free : .char '/' ∉ piece := by
        apply notMem_of_mem_segments
        rw [cut]
        exact List.mem_cons_self
      simp only [Bool.and_eq_true, decide_eq_true_eq] at looks
      cases scope : firstSegment '/' rest with
      | nil => simp [isPiece, scope] at looks
      | cons second more =>
          rw [scope] at isPiece
          subst isPiece
          have noSlash : second ≠ .char '/' := by
            rintro rfl
            simp at free
          exact ⟨_, packageName?_scoped begins cut looks.2, by simp,
            isPathAlias_of_scoped noSlash _⟩
    · cases looks
  · cases begins : firstSegment '/' (clean specifier) with
    | nil =>
        rw [begins] at looks
        cases looks
    | cons first rest =>
        rw [begins, isPackageSegment, Bool.and_eq_true] at looks
        have noDot : first ≠ .char '.' := by
          rintro rfl
          exact absurd looks.1 (by decide)
        have noScope : first ≠ .char '@' := by
          rintro rfl
          exact absurd looks.1 (by decide)
        refine ⟨first :: rest, packageName?_unscoped begins noDot noScope, by simp, ?_⟩
        apply isPathAlias_of_slashless
        rw [← begins]
        exact notMem_of_mem_segments (firstSegment_mem_segments '/' (clean specifier))

end Specifier

theorem References.package?_eq_some_iff {specifier name : Text} :
    package? specifier = some name ↔
      Specifier.packageName? specifier = some name ∧ Specifier.isPathAlias name = false := by
  rw [package?, Option.filter_eq_some_iff]
  constructor
  · rintro ⟨named, kept⟩
    simp_all
  · rintro ⟨named, noPath⟩
    simp [named, noPath, Specifier.packageName?_ne_nil named]

/-! ## Counting packages -/

namespace PackageReport

variable {components : List Component} {catalog : Catalog}

/-- An import that does not mean a package is not counted. -/
theorem packageOf?_eq_none {specifier : Text} (internal : catalog.isExternal specifier = false) :
    packageOf? catalog (.text specifier) = none := by
  rw [packageOf?, internal]
  rfl

theorem packageOf?_eq_some {specifier name : Text} (external : catalog.isExternal specifier = true)
    (named : Specifier.packageName? specifier = some name) (given : name ≠ [])
    (noPath : Specifier.isPathAlias name = false) :
    packageOf? catalog (.text specifier) = some name := by
  simp [packageOf?, external, References.package?, named, given, noPath]

theorem mem_importedPackages {component : Component} (isComponent : component ∈ components)
    {specifier : Json} (imported : specifier ∈ component.imports) {name : Text}
    (uses : packageOf? catalog specifier = some name) :
    name ∈ importedPackages components catalog := by
  rw [importedPackages, List.mem_eraseDups, List.mem_filterMap]
  exact ⟨specifier, List.mem_flatMap.2 ⟨component, isComponent, imported⟩, uses⟩

/-- Whether an import that is not counted is there makes no difference. -/
theorem importedPackages_without {before after : List Component} {component : Component}
    {earlier later : List Json} {specifier : Json}
    (imports : component.imports = earlier ++ specifier :: later)
    (uncounted : packageOf? catalog specifier = none) :
    importedPackages (before ++ component :: after) catalog =
      importedPackages (before ++ { component with imports := earlier ++ later } :: after)
        catalog := by
  simp [importedPackages, imports, uncounted]

end PackageReport

namespace Catalog

theorem isExternal_clean (catalog : Catalog) (specifier : Text) :
    catalog.isExternal (Specifier.clean specifier) = catalog.isExternal specifier := by
  rw [isExternal, Specifier.clean_clean, isExternal]

theorem resolve_clean (catalog : Catalog) (specifier : Text) :
    catalog.resolve (Specifier.clean specifier) = catalog.resolve specifier := by
  rw [resolve, Specifier.clean_clean, resolve]

theorem resolve_of_isExternal {catalog : Catalog} {specifier : Text}
    (external : catalog.isExternal specifier = true) : catalog.resolve specifier = [] := by
  rw [isExternal] at external
  simp [resolve, external]

theorem looksLikePackage_of_isExternal {catalog : Catalog} {specifier : Text}
    (external : catalog.isExternal specifier = true) :
    Specifier.looksLikePackage (Specifier.clean specifier) = true := by
  rw [isExternal, isPackage] at external
  split at external
  · cases external
  · exact (Bool.and_eq_true_iff.1 external).2

/-- An import that means a package means no files, and it is counted under a package name: leading
pieces of the specifier that are no path. An import that means files is not counted. Quotes and
blanks around a specifier change neither. -/
theorem imports_package_or_files (catalog : Catalog) (specifier : Text) :
    (catalog.isExternal specifier = true →
      catalog.resolve specifier = [] ∧
      ∃ name, Specifier.packageName? specifier = some name ∧ name ≠ [] ∧
        Specifier.isPathAlias name = false ∧
        (Specifier.clean specifier = name ∨ name ++ [.char '/'] <+: Specifier.clean specifier) ∧
        ∀ components, (∃ component ∈ components, .text specifier ∈ component.imports) →
          name ∈ PackageReport.importedPackages components catalog) ∧
    (catalog.resolve specifier ≠ [] →
      catalog.isExternal specifier = false ∧
      ∀ (before after : List Component) (component : Component) (earlier later : List Json),
        component.imports = earlier ++ .text specifier :: later →
        PackageReport.importedPackages (before ++ component :: after) catalog =
          PackageReport.importedPackages
            (before ++ { component with imports := earlier ++ later } :: after) catalog) ∧
    catalog.isExternal (Specifier.clean specifier) = catalog.isExternal specifier ∧
    catalog.resolve (Specifier.clean specifier) = catalog.resolve specifier ∧
    Specifier.packageName? (Specifier.clean specifier) = Specifier.packageName? specifier := by
  refine ⟨?_, ?_, catalog.isExternal_clean specifier, catalog.resolve_clean specifier,
    Specifier.packageName?_clean specifier⟩
  · intro external
    rcases Specifier.exists_packageName? (looksLikePackage_of_isExternal external) with
      ⟨name, named, given, noPath⟩
    refine ⟨resolve_of_isExternal external, name, named, given, noPath,
      Specifier.eq_or_prefix_of_packageName? named, ?_⟩
    rintro components ⟨component, isComponent, imported⟩
    exact PackageReport.mem_importedPackages isComponent imported
      (PackageReport.packageOf?_eq_some external named given noPath)
  · intro resolved
    have internal : catalog.isExternal specifier = false := by
      rw [Bool.eq_false_iff]
      exact fun external => resolved (resolve_of_isExternal external)
    refine ⟨internal, ?_⟩
    intro before after component earlier later imports
    exact PackageReport.importedPackages_without imports (PackageReport.packageOf?_eq_none internal)

/-- A catalog that knows one file, by a path that looks like a package. -/
def buttonCatalog : Catalog where
  byImport := Table.ofList [(.text "ui/button", ["src/ui/button.tsx#Button"])]

/-- A component that imports that file and a package. -/
def window : Component where
  name := .text "Window"
  path := .text "src/Window.tsx"
  imports := [.text "ui/button", .text " '@mui/material/Box' "]

theorem window_imports_package_and_files :
    buttonCatalog.resolve " '@mui/material/Box' " = [] ∧
    (∃ name, Specifier.packageName? " '@mui/material/Box' " = some name ∧
      name ∈ PackageReport.importedPackages [window] buttonCatalog) ∧
    buttonCatalog.resolve "ui/button" ≠ [] ∧ buttonCatalog.isExternal "ui/button" = false ∧
    PackageReport.importedPackages [window] buttonCatalog =
      PackageReport.importedPackages
        [{ window with imports := [.text " '@mui/material/Box' "] }] buttonCatalog := by
  have external : buttonCatalog.isExternal " '@mui/material/Box' " = true := by decide +kernel
  have resolved : buttonCatalog.resolve "ui/button" ≠ [] := by decide +kernel
  rcases (imports_package_or_files buttonCatalog " '@mui/material/Box' ").1 external with
    ⟨noFiles, name, named, -, -, -, counted⟩
  rcases (imports_package_or_files buttonCatalog "ui/button").2.1 resolved with
    ⟨internal, uncounted⟩
  refine ⟨noFiles, ⟨name, named, ?_⟩, resolved, internal, ?_⟩
  · exact counted [window] ⟨window, List.mem_singleton.2 rfl, by simp [window]⟩
  · exact uncounted [] [] window [] _ rfl

end Catalog

end ImportAtlas
