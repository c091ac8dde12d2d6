import ImportAtlas.DependencyGraph

/-!
# The call graph

The call graph has two kinds of vertex. Components point to the components that they import, as
in the dependency graph; functions point to the functions that they call, which are taken to
live in the same component.
-/

namespace ImportAtlas

/-- A component, or a function of a component. -/
inductive Vertex where
  | component (id : Text)
  | function (owner : Text) (name : Atom)
  deriving DecidableEq, Inhabited

namespace Vertex

/-- Two vertices are one if they are of one kind and their parts are equal; names of functions
are equal as names are. -/
def same : Vertex → Vertex → Bool
  | .component left, .component right => left == right
  | .function leftOwner left, .function rightOwner right =>
      leftOwner == rightOwner && left == right
  | _, _ => false

instance : BEq Vertex := ⟨same⟩

@[simp] theorem beq_component (left right : Text) :
    (Vertex.component left == Vertex.component right) = (left == right) := rfl

@[simp] theorem beq_function (leftOwner rightOwner : Text) (left right : Atom) :
    (Vertex.function leftOwner left == Vertex.function rightOwner right) =
      (leftOwner == rightOwner && left == right) := rfl

@[simp] theorem beq_component_function (id owner : Text) (name : Atom) :
    (Vertex.component id == Vertex.function owner name) = false := rfl

@[simp] theorem beq_function_component (id owner : Text) (name : Atom) :
    (Vertex.function owner name == Vertex.component id) = false := rfl

instance : EquivBEq Vertex where
  rfl {vertex} := by cases vertex <;> simp
  symm {left right} equal := by
    cases left <;> cases right <;> simp_all [BEq.comm]
  trans {first second third} left right := by
    cases first <;> cases second <;> cases third <;>
      simp only [beq_component, beq_function, beq_component_function, beq_function_component,
        Bool.and_eq_true, Bool.false_eq_true] at left right ⊢
    · exact BEq.trans left right
    · exact ⟨BEq.trans left.1 right.1, BEq.trans left.2 right.2⟩

/-- The identifier of a component vertex. -/
def component? : Vertex → Option Text
  | .component id => some id
  | .function _ _ => none

/-- Owner and name of a function vertex. -/
def function? : Vertex → Option (Text × Atom)
  | .component _ => none
  | .function owner name => some (owner, name)

end Vertex

/-- The identifier of a function in a diagram. -/
def functionId (owner : Text) (name : Atom) : Text := owner ++ "." ++ name.display

/-- The combined graph of components and functions, beside the list of its vertices. A vertex
stands in the list from its first entry on. -/
structure CallGraph where
  vertices : Table Vertex Unit := ∅
  graph : Digraph Vertex := ∅
  deriving Inhabited

namespace CallGraph

/-- Enter a vertex and write its targets. -/
def enter (built : CallGraph) (vertex : Vertex) (targets : List Vertex) : CallGraph where
  vertices := built.vertices.insert vertex ()
  graph := built.graph.insert vertex targets

/-- Enter a component vertex and its imports. -/
def addImports (catalog : Catalog) (built : CallGraph) (component : Component) : CallGraph :=
  let vertex := Vertex.component component.id
  built.enter vertex
    (built.graph.targets vertex ++
      (catalog.importTargets component).map Vertex.component).eraseDups

/-- The listed callees of a function. Only a text can be looked up among the callers. -/
def calleesOf (calls : Table Text (List Json)) : Atom → List Json
  | .text name => (calls.get? name).getD []
  | _ => []

/-- Enter a function vertex and its callees. A later declaration replaces an earlier one. -/
def addFunction (owner : Text) (calls : Table Text (List Json)) (built : CallGraph)
    (function : Json) : Except Fault CallGraph := do
  let name ← Listing.nameOf function
  let callees ← (calleesOf calls name).mapM Listing.nameOf
  return built.enter (.function owner name) (callees.map (Vertex.function owner)).eraseDups

/-- Enter the functions of a component that has both functions and calls. -/
def addFunctions (component : Component) (built : CallGraph) : Except Fault CallGraph :=
  match component.functions, component.calls with
  | some functions, some calls => functions.foldlM (addFunction component.id calls) built
  | _, _ => .ok built

/-- Enter a component with its functions. -/
def addComponent (catalog : Catalog) (built : CallGraph) (component : Component) :
    Except Fault CallGraph :=
  addFunctions component (addImports catalog built component)

/-- Enter all components, in their order. -/
def build (components : List Component) (catalog : Catalog) : Except Fault CallGraph :=
  components.foldlM (addComponent catalog) {}

/-- The graph that is built from components. -/
def ofComponents (components : List Component) (catalog : Catalog) :
    Except Fault (Digraph Vertex) :=
  (build components catalog).map graph

end CallGraph

end ImportAtlas
