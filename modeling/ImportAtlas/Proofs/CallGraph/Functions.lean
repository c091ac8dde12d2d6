import ImportAtlas.Proofs.CallGraph.Layers
import ImportAtlas.Proofs.Digraph.Alike

/-!
# The functions of the call graph

A record enters its functions under its own identifier, one after the other, and of several
declarations of a function the last counts. So what the call graph holds under a function is what
the last record that declares it says. Where no two records share an identifier there is one such
record at most, and the order of the records does not matter.
-/

namespace ImportAtlas.CallGraph

/-! ## What a record says of its functions -/

/-- A declared function with its callees. -/
def functionEntry (owner : Text) (calls : Table Text (List Json)) (function : Json) :
    Except Fault (Vertex × List Vertex) := do
  let name ← Listing.nameOf function
  let callees ← (calleesOf calls name).mapM Listing.nameOf
  return (.function owner name, (callees.map (Vertex.function owner)).eraseDups)

/-- The functions of a record that has both functions and calls, in the order of declaration. -/
def functionEntries (component : Component) : Except Fault (List (Vertex × List Vertex)) :=
  match component.functions, component.calls with
  | some functions, some calls => functions.mapM (functionEntry component.id calls)
  | _, _ => .ok []

/-- The callees that a record gives a function in its last declaration. -/
def calleesIn? (component : Component) (function : Vertex) : Option (List Vertex) :=
  (((functionEntries component).toOption.getD []).reverse.find? fun entry =>
    entry.1 == function).map Prod.snd

/-- Enter vertices with their targets, one after the other. -/
def enterAll (built : CallGraph) (entries : List (Vertex × List Vertex)) : CallGraph :=
  entries.foldl (fun built entry => built.enter entry.1 entry.2) built

theorem graph_enterAll (built : CallGraph) (entries : List (Vertex × List Vertex)) :
    (built.enterAll entries).graph = built.graph.insertAll entries := by
  induction entries generalizing built with
  | nil => rfl
  | cons entry entries ih => exact ih (built.enter entry.1 entry.2)

theorem addFunction_eq (owner : Text) (calls : Table Text (List Json)) (built : CallGraph)
    (function : Json) :
    addFunction owner calls built function =
      (functionEntry owner calls function).map fun entry => built.enter entry.1 entry.2 := by
  change _ = (fun entry : Vertex × List Vertex => built.enter entry.1 entry.2) <$>
    functionEntry owner calls function
  simp only [addFunction, functionEntry, map_bind, map_pure]

/-- The functions of a record are written one after the other. -/
theorem addFunctions_eq (component : Component) (built : CallGraph) :
    addFunctions component built = (functionEntries component).map built.enterAll := by
  rw [addFunctions.eq_def, functionEntries.eq_def]
  cases component.functions with
  | none => rfl
  | some functions =>
      cases component.calls with
      | none => rfl
      | some calls =>
          have step : addFunction component.id calls = fun built function =>
              (functionEntry component.id calls function).map fun entry =>
                built.enter entry.1 entry.2 := by
            funext built function
            exact addFunction_eq component.id calls built function
          simp only [step]
          exact foldlM_map (functionEntry component.id calls) _ functions built

theorem exists_function_of_mem {component : Component} {entries : List (Vertex × List Vertex)}
    (declared : functionEntries component = .ok entries) {entry : Vertex × List Vertex}
    (member : entry ∈ entries) :
    ∃ name, entry.1 = .function component.id name ∧
      ∃ functions ∈ component.functions, .atom name ∈ functions := by
  rw [functionEntries.eq_def] at declared
  split at declared
  · rename_i functions calls isFunctions isCalls
    rcases (mem_iff_of_mapM_eq_ok declared).1 member with ⟨function, isFunction, made⟩
    rcases bind_eq_ok_iff.1 made with ⟨name, named, made⟩
    rcases bind_eq_ok_iff.1 made with ⟨callees, -, made⟩
    cases made
    cases function <;> cases named
    exact ⟨name, rfl, functions, isFunctions, isFunction⟩
  · cases declared
    cases member

/-- A record declares functions under its own identifier only, and lists them by name. -/
theorem exists_declared_of_calleesIn? {component : Component} {owner : Text} {name : Atom}
    {callees : List Vertex} (found : calleesIn? component (.function owner name) = some callees) :
    component.id = owner ∧ ∃ functions ∈ component.functions, ∃ declared,
      .atom declared ∈ functions ∧ (declared == name) = true := by
  rcases Option.map_eq_some_iff.1 found with ⟨entry, isFound, -⟩
  have equal := List.find?_some isFound
  have member := List.mem_reverse.1 (List.mem_of_find?_eq_some isFound)
  cases declared : functionEntries component with
  | error fault =>
      rw [declared] at member
      cases member
  | ok entries =>
      rw [declared] at member
      rcases exists_function_of_mem declared member with ⟨other, isFunction, functions, listed⟩
      rw [isFunction, Vertex.beq_function, Bool.and_eq_true, beq_iff_eq] at equal
      exact ⟨equal.1, functions, listed.1, other, listed.2, equal.2⟩

/-! ## What the graph holds under a function -/

section Built

variable {components : List Component} {catalog : Catalog} {before after : CallGraph}

/-- A record replaces what the graph holds under the functions that it declares. -/
theorem get?_addComponent {component : Component}
    (added : addComponent catalog before component = .ok after) (owner : Text) (name : Atom) :
    after.graph.get? (.function owner name) =
      (calleesIn? component (.function owner name)).or
        (before.graph.get? (.function owner name)) := by
  rw [addComponent, addFunctions_eq] at added
  cases declared : functionEntries component with
  | error fault =>
      rw [declared] at added
      cases added
  | ok entries =>
      rw [declared] at added
      cases added
      rw [graph_enterAll, Table.get?_insertAll, addImports, enter, Table.get?_insert, calleesIn?,
        declared]
      rfl

theorem get?_addComponents (added : components.foldlM (addComponent catalog) before = .ok after)
    (owner : Text) (name : Atom) :
    after.graph.get? (.function owner name) =
      (components.reverse.findSome? fun component =>
        calleesIn? component (.function owner name)).or
          (before.graph.get? (.function owner name)) := by
  induction components generalizing before with
  | nil =>
      cases added
      rfl
  | cons component rest ih =>
      rw [List.foldlM_cons] at added
      rcases bind_eq_ok_iff.1 added with ⟨next, entered, added⟩
      rw [ih added, get?_addComponent entered, List.reverse_cons, List.findSome?_append,
        Option.or_assoc]
      simp

variable {graph : Digraph Vertex}

/-- Under a function the call graph holds what the last record that declares it says. -/
theorem get?_function (built : ofComponents components catalog = .ok graph) (owner : Text)
    (name : Atom) :
    graph.get? (.function owner name) =
      components.reverse.findSome? fun component =>
        calleesIn? component (.function owner name) := by
  obtain ⟨vertices, isBuilt⟩ := exists_build_of_ofComponents built
  have found := get?_addComponents isBuilt owner name
  exact found.trans Option.or_none

/-- Every function vertex is declared by a record of its owner. -/
theorem exists_declared_of_known (built : ofComponents components catalog = .ok graph)
    {owner : Text} {name : Atom} (known : graph.keys.contains (.function owner name) = true) :
    ∃ component ∈ components, component.id = owner ∧ ∃ functions ∈ component.functions,
      ∃ declared, .atom declared ∈ functions ∧ (declared == name) = true := by
  rcases Table.contains_keys_iff.1 known with ⟨callees, found⟩
  rw [get?_function built] at found
  rcases List.exists_of_findSome?_eq_some found with ⟨component, member, declared⟩
  exact ⟨component, List.mem_reverse.1 member, exists_declared_of_calleesIn? declared⟩

/-- Of records with different identifiers one at most declares a function. -/
theorem get?_function_eq_some_iff (built : ofComponents components catalog = .ok graph)
    (distinct : (components.map Component.id).Nodup) {owner : Text} {name : Atom}
    {callees : List Vertex} :
    graph.get? (.function owner name) = some callees ↔
      ∃ component ∈ components, calleesIn? component (.function owner name) = some callees := by
  rw [get?_function built]
  constructor
  · intro found
    rcases List.exists_of_findSome?_eq_some found with ⟨component, member, declared⟩
    exact ⟨component, List.mem_reverse.1 member, declared⟩
  · rintro ⟨component, member, declared⟩
    cases found : components.reverse.findSome? fun component =>
        calleesIn? component (.function owner name) with
    | none =>
        have undeclared := List.findSome?_eq_none_iff.1 found component (List.mem_reverse.2 member)
        rw [declared] at undeclared
        cases undeclared
    | some others =>
        -- The record found declares the same function, so it has the same identifier.
        rcases List.exists_of_findSome?_eq_some found with ⟨other, isOther, otherDeclared⟩
        have sameId : component.id = other.id :=
          (exists_declared_of_calleesIn? declared).1.trans
            (exists_declared_of_calleesIn? otherDeclared).1.symm
        have same : component = other :=
          List.inj_on_of_nodup_map distinct member (List.mem_reverse.1 isOther) sameId
        rw [← otherDeclared, ← same, declared]

/-- Reordering records with different identifiers changes nothing under any function, whatever
their imports are resolved to. -/
theorem get?_function_of_perm {others : List Component} {otherCatalog : Catalog}
    {otherGraph : Digraph Vertex} (built : ofComponents components catalog = .ok graph)
    (otherBuilt : ofComponents others otherCatalog = .ok otherGraph)
    (distinct : (components.map Component.id).Nodup) (reordered : components.Perm others)
    (owner : Text) (name : Atom) :
    graph.get? (.function owner name) = otherGraph.get? (.function owner name) := by
  have otherDistinct : (others.map Component.id).Nodup :=
    (reordered.map Component.id).nodup distinct
  apply Option.ext
  intro callees
  rw [get?_function_eq_some_iff built distinct, get?_function_eq_some_iff otherBuilt otherDistinct]
  simp only [reordered.mem_iff]

end Built

/-- Call graphs are alike if their component layers are and they hold the same under functions. -/
theorem Layered.alike {graph otherGraph : Digraph Vertex} {imports otherImports : Digraph Text}
    (layered : Layered graph imports) (otherLayered : Layered otherGraph otherImports)
    (importsAlike : Digraph.Alike imports otherImports)
    (sameCalls : ∀ owner name,
      graph.get? (.function owner name) = otherGraph.get? (.function owner name)) :
    Digraph.Alike graph otherGraph := by
  constructor
  · intro vertex
    cases vertex with
    | component id =>
        rw [layered.contains_keys_component, otherLayered.contains_keys_component,
          ← List.contains_iff_mem, ← List.contains_iff_mem]
        exact importsAlike.keys id
    | function owner name => rw [Table.contains_keys_iff, Table.contains_keys_iff, sameCalls]
  · intro source target
    cases source with
    | component source =>
        cases target with
        | component target =>
            rw [layered.edge_component_iff, otherLayered.edge_component_iff]
            exact importsAlike.edge source target
        | function owner name =>
            simp [Digraph.Edge, layered.targets_component, otherLayered.targets_component]
    | function owner name =>
        rw [Digraph.Edge, Digraph.Edge, Digraph.targets, Digraph.targets, sameCalls]

/-! ## Records whose functions have names -/

/-- A value that can name a function. -/
def isName : Json → Bool
  | .atom _ => true
  | _ => false

theorem exists_name {value : Json} (named : isName value = true) : ∃ name, value = .atom name := by
  cases value with
  | atom name => exact ⟨name, rfl⟩
  | arr | obj => cases named

/-- A record whose functions and callees are all given by names. -/
structure Named (component : Component) : Prop where
  functions : ∀ functions ∈ component.functions, ∀ function ∈ functions, isName function = true
  callees : ∀ calls ∈ component.calls, ∀ entry ∈ calls.entries, ∀ callee ∈ entry.2,
    isName callee = true

instance (component : Component) : Decidable (Named component) :=
  decidable_of_iff
    ((∀ functions ∈ component.functions, ∀ function ∈ functions, isName function = true) ∧
      ∀ calls ∈ component.calls, ∀ entry ∈ calls.entries, ∀ callee ∈ entry.2,
        isName callee = true)
    ⟨fun named => ⟨named.1, named.2⟩, fun named => ⟨named.functions, named.callees⟩⟩

/-- The callees of any function are listed in some entry. -/
theorem exists_entry_of_mem_calleesOf {calls : Table Text (List Json)} {name : Atom} {callee : Json}
    (member : callee ∈ calleesOf calls name) : ∃ entry ∈ calls.entries, callee ∈ entry.2 := by
  cases name with
  | text name =>
      rw [calleesOf] at member
      cases found : calls.get? name with
      | none =>
          rw [found] at member
          cases member
      | some callees =>
          rw [found] at member
          rcases Table.exists_entry_of_get? found with ⟨entry, isEntry, -, rfl⟩
          exact ⟨entry, isEntry, member⟩
  | null | bool | num => cases member

theorem exists_functionEntries {component : Component} (named : Named component) :
    ∃ entries, functionEntries component = .ok entries := by
  rw [functionEntries.eq_def]
  split
  · rename_i functions calls isFunctions isCalls
    apply exists_mapM_eq_ok
    intro function member
    rcases exists_name (named.functions functions isFunctions function member) with ⟨name, rfl⟩
    have each : ∀ callee ∈ calleesOf calls name, ∃ name, Listing.nameOf callee = .ok name := by
      intro callee isCallee
      rcases exists_entry_of_mem_calleesOf isCallee with ⟨entry, isEntry, listed⟩
      rcases exists_name (named.callees calls isCalls entry isEntry callee listed) with ⟨name, rfl⟩
      exact ⟨name, rfl⟩
    rcases exists_mapM_eq_ok each with ⟨callees, isCallees⟩
    exact ⟨_, bind_eq_ok_iff.2 ⟨name, rfl, bind_eq_ok_iff.2 ⟨callees, isCallees, rfl⟩⟩⟩
  · exact ⟨[], rfl⟩

theorem exists_ofComponents {components : List Component}
    (named : ∀ component ∈ components, Named component) (catalog : Catalog) :
    ∃ graph, ofComponents components catalog = .ok graph := by
  have isBuilt : ∃ built, build components catalog = .ok built := by
    apply exists_foldlM_eq_ok
    intro component member before
    rcases exists_functionEntries (named component member) with ⟨entries, declared⟩
    rw [addComponent, addFunctions_eq, declared]
    exact ⟨_, rfl⟩
  rcases isBuilt with ⟨built, isBuilt⟩
  exact ⟨built.graph, map_eq_ok_iff.2 ⟨built, isBuilt, rfl⟩⟩

end ImportAtlas.CallGraph
