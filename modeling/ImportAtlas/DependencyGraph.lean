import ImportAtlas.Catalog
import ImportAtlas.Digraph

/-!
# The dependency graph

Components point to the components that they import. Every component is a vertex, an import of
itself is no edge, and records that share an identifier share a vertex.
-/

namespace ImportAtlas

namespace Catalog

/-- The components other than itself that a component imports, import by import. -/
def importTargets (catalog : Catalog) (component : Component) : List Text :=
  (component.imports.flatMap catalog.resolveImport).filter fun target => target != component.id

end Catalog

namespace DependencyGraph

/-- Enter a component and its imports. Targets that are known stay in front. -/
def addComponent (catalog : Catalog) (graph : Digraph Text) (component : Component) :
    Digraph Text :=
  graph.insert component.id
    (graph.targets component.id ++ catalog.importTargets component).eraseDups

/-- The import graph of a list of components. -/
def ofComponents (components : List Component) (catalog : Catalog) : Digraph Text :=
  components.foldl (addComponent catalog) ∅

/-- One line on the size of a graph. -/
def summary (graph : Digraph Text) : Text :=
  "Built dependency graph: " ++ Text.ofNat graph.size ++ " nodes, " ++
    Text.ofNat graph.edgeCount ++ " edges"

end DependencyGraph

end ImportAtlas
