import ImportAtlas.Catalog.Pattern

/-!
# The catalog of a project

A catalog holds the components of one run under five indexes: by identifier, name, path,
directory and import pattern. Of several records with one identifier the first is kept. The
catalog decides whether an import means a package or files of the project.
-/

namespace ImportAtlas

/-- A component that a catalog has taken up, with the fields that the indexes need. -/
structure Listing where
  component : Component
  id : Text
  name : Atom
  path : Text
  directory : Atom
  patterns : List Atom
  deriving Inhabited

namespace Listing

/-- A field that serves as a key. -/
def nameOf : Json → Except Fault Atom
  | .atom value => .ok value
  | _ => .error .notName

/-- Check the fields of a component that is taken up. -/
def ofComponent (component : Component) : Except Fault Listing := do
  let name ← nameOf component.name
  let path ← nameOf component.path
  let directory ← nameOf component.directory
  let patterns ← component.importPatterns
  match path with
  | .text path => return { component, id := component.id, name, path, directory, patterns }
  | _ => .error .notText

end Listing

/-- The components of one run under their indexes. -/
structure Catalog where
  byId : Table Text Listing := ∅
  byName : Table Atom (List Listing) := ∅
  byPath : Table Text Listing := ∅
  byDirectory : Table Atom (List Listing) := ∅
  byImport : Table Atom (List Text) := ∅
  deriving Inhabited

namespace Catalog

/-- Enter a listing into every index. -/
def enter (catalog : Catalog) (listing : Listing) : Catalog where
  byId := catalog.byId.insert listing.id listing
  byName := catalog.byName.push listing.name listing
  byPath := catalog.byPath.insert listing.path listing
  byDirectory := catalog.byDirectory.push listing.directory listing
  byImport :=
    listing.patterns.foldl (fun index pattern => index.push pattern listing.id) catalog.byImport

/-- Take up a component unless its identifier is known. -/
def add (catalog : Catalog) (component : Component) : Except Fault Catalog :=
  if catalog.byId.contains component.id then .ok catalog
  else (Listing.ofComponent component).map catalog.enter

/-- The catalog of a list of components. -/
def ofComponents (components : List Component) : Except Fault Catalog :=
  components.foldlM add {}

/-! ## Look-up -/

def get? (catalog : Catalog) (id : Text) : Option Listing := catalog.byId.get? id

def named (catalog : Catalog) (name : Atom) : List Listing :=
  (catalog.byName.get? name).getD []

def atPath? (catalog : Catalog) (path : Text) : Option Listing := catalog.byPath.get? path

def inDirectory (catalog : Catalog) (directory : Atom) : List Listing :=
  (catalog.byDirectory.get? directory).getD []

/-- Identifiers in the order in which they were taken up. -/
def ids (catalog : Catalog) : List Text := catalog.byId.keys

/-- Listings in the order in which they were taken up. -/
def listings (catalog : Catalog) : List Listing := catalog.byId.values

def size (catalog : Catalog) : Nat := catalog.byId.size

def contains (catalog : Catalog) (id : Text) : Bool := catalog.byId.contains id

def containsName (catalog : Catalog) (name : Atom) : Bool := catalog.byName.contains name

/-- The name to show for an identifier, the identifier itself if it is unknown. -/
def displayName (catalog : Catalog) (id : Text) : Atom :=
  match catalog.get? id with
  | some listing => listing.name
  | none => .text id

/-! ## Imports -/

/-- A pattern as it stands in the import index. -/
def patternKey (key : Text) : Atom := .text key

/-- Whether a cleaned specifier names a package. A bare specifier that is the path of a known
file names that file. -/
def isPackage (catalog : Catalog) (specifier : Text) : Bool :=
  if specifier = [] || Specifier.isInternalByForm specifier then false
  else
    let known :=
      match Specifier.importKeys specifier with
      | key :: _ => catalog.byImport.contains (patternKey key)
      | [] => false
    !known && Specifier.looksLikePackage specifier

/-- Components under the first key that any component has. -/
def underFirstKey (catalog : Catalog) : List Text → List Text
  | [] => []
  | key :: keys =>
      match catalog.byImport.get? (patternKey key) with
      | some (id :: ids) => id :: ids
      | _ => underFirstKey catalog keys

/-- Whether an import means a package. -/
def isExternal (catalog : Catalog) (specifier : Text) : Bool :=
  catalog.isPackage (Specifier.clean specifier)

/-- Identifiers of the components that an import may mean. A package means none. -/
def resolve (catalog : Catalog) (specifier : Text) : List Text :=
  let cleaned := Specifier.clean specifier
  if cleaned = [] || catalog.isPackage cleaned then []
  else catalog.underFirstKey (Specifier.importKeys cleaned)

/-- Whether an import of any value means a package. Only texts do. -/
def isExternalImport (catalog : Catalog) : Json → Bool
  | .atom (.text specifier) => catalog.isExternal specifier
  | _ => false

/-- Components that an import of any value may mean. Only texts mean some. -/
def resolveImport (catalog : Catalog) : Json → List Text
  | .atom (.text specifier) => catalog.resolve specifier
  | _ => []

end Catalog

end ImportAtlas
