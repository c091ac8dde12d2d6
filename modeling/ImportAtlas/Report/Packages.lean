import ImportAtlas.Package.ConfigUse
import ImportAtlas.Package.Manifest
import ImportAtlas.Package.Names
import ImportAtlas.Settings

/-!
# The report on packages

Declared packages are compared with those that components import and configuration files refer
to. A declared package that nothing uses is unused; an imported one that is neither declared nor
built in is missing.
-/

namespace ImportAtlas

/-- Unused and missing packages. -/
structure PackageReport where
  unused : List Atom
  missing : List Text
  warnings : List Text
  declaredCount : Nat
  usedCount : Nat
  deriving Inhabited

namespace PackageReport

/-- The package that an import uses. -/
def packageOf? (catalog : Catalog) (specifier : Json) : Option Text :=
  match specifier with
  | .atom (.text text) =>
      if catalog.isExternal text then References.package? text else none
  | _ => none

/-- The packages that components import, each once. -/
def importedPackages (components : List Component) (catalog : Catalog) : List Text :=
  ((components.flatMap Component.imports).filterMap (packageOf? catalog)).eraseDups

/-- Whether a declared name is treated apart because no import shows its use. -/
def isExempt : Atom → Bool
  | .text name => Package.isSpecial name || Package.isDevTool name
  | _ => false

/-- Declared packages that nothing uses, in the order of declaration. -/
def unusedPackages (declared : Table Atom Json) (imported configured : List Text) : List Atom :=
  let used := (imported ++ configured).map Atom.text
  declared.keys.filter fun name => !used.contains name && !isExempt name

/-- Imported packages that are neither declared nor built in, in the order of their names. -/
def missingPackages (declared : Table Atom Json) (imported : List Text) : List Text :=
  Text.sorted (imported.filter fun name =>
    !declared.contains (.text name) && !Package.isBuiltin name)

/-- Compare what is declared with what is used. -/
def compare (declared : Table Atom Json) (imported configured warnings : List Text) :
    PackageReport :=
  { unused := unusedPackages declared imported configured
    missing := missingPackages declared imported
    warnings
    declaredCount := declared.size
    usedCount := imported.length }

/-- The report on the packages of a project. -/
def ofProject (components : List Component) (catalog : Catalog) (settings : Settings)
    (host : Host) (tree : FileTree) : Except Fault PackageReport := do
  let root := PosixPath.ofText settings.projectPath
  let manifest ← Manifest.read host tree root settings.includeDev
  let imported := importedPackages components catalog
  let configured ← ConfigFiles.use host tree root settings.ignoredDirectories
  return compare manifest.declared imported configured.packages
    (manifest.warnings ++ configured.warnings)

/-- One line on what was found. -/
def summary (report : PackageReport) : Text :=
  "Package dependencies: " ++ Text.ofNat report.declaredCount ++ " declared, " ++
    Text.ofNat report.usedCount ++ " used, " ++ Text.ofNat report.unused.length ++ " unused, " ++
    Text.ofNat report.missing.length ++ " missing"

def toJson (report : PackageReport) : Json :=
  .obj [
    ("unusedDependencies", .atoms report.unused),
    ("missingDependencies", .texts report.missing),
    ("warnings", .texts report.warnings)]

end PackageReport

end ImportAtlas
