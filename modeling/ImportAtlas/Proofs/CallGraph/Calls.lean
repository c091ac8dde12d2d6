import ImportAtlas.Proofs.CallGraph.Functions

/-!
# The calls of the call graph

Records that share an identifier share their vertices. Their imports are joined, but the callees of
a function are written anew by every record that declares it, so the last such record decides which
calls there are. A call that only an earlier record lists is lost. No call is lost where the last
record lists all that earlier ones do, and in particular where no two records share an identifier.
-/

namespace ImportAtlas.CallGraph

/-! ## What a record lists -/

/-- The value as a name. -/
def name? : Json → Option Atom
  | .atom name => some name
  | _ => none

/-- The functions that a record declares. One without calls declares none. -/
def declared (component : Component) : List Atom :=
  match component.functions, component.calls with
  | some functions, some _ => functions.filterMap name?
  | _, _ => []

/-- The callees that a record lists for a function, declared or not. -/
def listed (component : Component) (function : Atom) : List Atom :=
  match component.calls with
  | some calls => (calleesOf calls function).filterMap name?
  | none => []

/-- A record declares a function and lists a callee for it. -/
def Calls (component : Component) (caller callee : Atom) : Prop :=
  (declared component).contains caller = true ∧ (listed component caller).contains callee = true

/-- What a record writes under a function. -/
def calleeVertices (component : Component) (function : Atom) : List Vertex :=
  ((listed component function).map (Vertex.function component.id)).eraseDups

theorem calleesOf_congr (calls : Table Text (List Json)) {left right : Atom}
    (equal : (left == right) = true) : calleesOf calls left = calleesOf calls right := by
  cases right with
  | text name => rw [Atom.eq_of_beq_text equal]
  | null | bool | num =>
      cases left with
      | text name => cases Atom.eq_of_beq_text (BEq.symm equal)
      | null | bool | num => rfl

theorem calleeVertices_congr (component : Component) {left right : Atom}
    (equal : (left == right) = true) :
    calleeVertices component left = calleeVertices component right := by
  have sameListed : listed component left = listed component right := by
    unfold listed
    cases component.calls with
    | none => rfl
    | some calls => simp only [calleesOf_congr calls equal]
  rw [calleeVertices, calleeVertices, sameListed]

theorem contains_calleeVertices {component : Component} {function : Atom} {target : Vertex} :
    (calleeVertices component function).contains target = true ↔
      ∃ callee, target = .function component.id callee ∧
        (listed component function).contains callee = true := by
  rw [calleeVertices, contains_eraseDups]
  cases target with
  | component id => simp
  | function owner name =>
      simp only [List.contains_iff_exists_mem_beq, List.mem_map]
      constructor
      · intro written
        rcases written with ⟨_, ⟨callee, isListed, rfl⟩, equal⟩
        rw [Vertex.beq_function, Bool.and_eq_true, beq_iff_eq] at equal
        exact ⟨name, by rw [equal.1], callee, isListed, equal.2⟩
      · intro isCallee
        rcases isCallee with ⟨other, isFunction, callee, isListed, equal⟩
        cases isFunction
        exact ⟨_, ⟨callee, isListed, rfl⟩, by simp [equal]⟩

/-! ## What a record writes -/

/-- Where every value is a name, a computation on values is one on names. -/
theorem mapM_named {ε β : Type} {values : List Json} (named : ∀ value ∈ values, isName value = true)
    {compute : Json → Except ε β} {result : Atom → β}
    (computed : ∀ name, .atom name ∈ values → compute (.atom name) = .ok (result name)) :
    values.mapM compute = .ok ((values.filterMap name?).map result) := by
  induction values with
  | nil => rfl
  | cons value rest ih =>
      rcases exists_name (named value List.mem_cons_self) with ⟨name, rfl⟩
      have others := ih (fun other member => named other (List.mem_cons_of_mem _ member))
        fun other member => computed other (List.mem_cons_of_mem _ member)
      rw [List.mapM_cons, computed name List.mem_cons_self, others]
      rfl

theorem mapM_nameOf_calleesOf {component : Component} {calls : Table Text (List Json)}
    (named : Named component) (isCalls : component.calls = some calls) (function : Atom) :
    (calleesOf calls function).mapM Listing.nameOf = .ok (listed component function) := by
  have calleesNamed : ∀ callee ∈ calleesOf calls function, isName callee = true := by
    intro callee isCallee
    rcases exists_entry_of_mem_calleesOf isCallee with ⟨entry, isEntry, isListed⟩
    exact named.callees calls isCalls entry isEntry callee isListed
  have read : (calleesOf calls function).mapM Listing.nameOf =
      .ok (((calleesOf calls function).filterMap name?).map id) :=
    mapM_named calleesNamed fun _ _ => rfl
  rw [read, List.map_id, listed, isCalls]

/-- A record with names writes its callees under each function that it declares. -/
theorem functionEntries_eq {component : Component} (named : Named component) :
    functionEntries component = .ok ((declared component).map fun function =>
      (.function component.id function, calleeVertices component function)) := by
  rw [functionEntries.eq_def, declared.eq_def]
  cases isFunctions : component.functions with
  | none => rfl
  | some functions =>
      cases isCalls : component.calls with
      | none => rfl
      | some calls =>
          apply mapM_named (named.functions functions isFunctions)
          intro function _
          have callees := mapM_nameOf_calleesOf named isCalls function
          exact bind_eq_ok_iff.2 ⟨function, rfl, bind_eq_ok_iff.2 ⟨_, callees, rfl⟩⟩

/-- A record is of a component and declares a function of it. -/
def declares (owner : Text) (function : Atom) (component : Component) : Bool :=
  component.id == owner && (declared component).contains function

/-- The callees that a record gives a function do not depend on which of several declarations of the
function is read. -/
theorem calleesIn?_eq {component : Component} (named : Named component) (owner : Text)
    (function : Atom) :
    calleesIn? component (.function owner function) =
      if declares owner function component then some (calleeVertices component function)
      else none := by
  rw [calleesIn?, functionEntries_eq named, Except.toOption, Option.getD_some, ← List.map_reverse,
    List.find?_map, Option.map_map]
  cases found : (declared component).reverse.find?
      ((fun entry => entry.1 == Vertex.function owner function) ∘ fun function =>
        (Vertex.function component.id function, calleeVertices component function)) with
  | none =>
      rw [if_neg, Option.map_none]
      intro isDeclared
      rw [declares, Bool.and_eq_true, beq_iff_eq] at isDeclared
      rcases List.contains_iff_exists_mem_beq.1 isDeclared.2 with ⟨other, member, equal⟩
      have different := List.find?_eq_none.1 found other (List.mem_reverse.2 member)
      simp [isDeclared.1, BEq.symm equal] at different
  | some other =>
      have equal := List.find?_some found
      have member := List.mem_reverse.1 (List.mem_of_find?_eq_some found)
      rw [Function.comp_apply, Vertex.beq_function, Bool.and_eq_true] at equal
      have isDeclared : (declared component).contains function = true :=
        List.contains_iff_exists_mem_beq.2 ⟨other, member, BEq.symm equal.2⟩
      rw [declares, equal.1, isDeclared, Option.map_some]
      exact congrArg some (calleeVertices_congr component equal.2)

/-! ## The last record that declares a function -/

/-- Of the records that declare a function the last one. -/
def lastDeclaring? (components : List Component) (owner : Text) (function : Atom) :
    Option Component :=
  (components.filter (declares owner function)).getLast?

section Built

variable {components : List Component} {catalog : Catalog} {graph : Digraph Vertex}

theorem findSome?_calleesIn? (named : ∀ component ∈ components, Named component) (owner : Text)
    (function : Atom) :
    (components.findSome? fun component => calleesIn? component (.function owner function)) =
      (components.find? (declares owner function)).map (calleeVertices · function) := by
  induction components with
  | nil => rfl
  | cons component rest ih =>
      have others := ih fun other member => named other (List.mem_cons_of_mem component member)
      rw [List.findSome?_cons, calleesIn?_eq (named component List.mem_cons_self), List.find?_cons]
      cases declares owner function component with
      | true => rfl
      | false => exact others

/-- Under a function the call graph holds what the last record that declares it writes. -/
theorem get?_function_eq (named : ∀ component ∈ components, Named component)
    (built : ofComponents components catalog = .ok graph) (owner : Text) (function : Atom) :
    graph.get? (.function owner function) =
      (lastDeclaring? components owner function).map (calleeVertices · function) := by
  have backwards : ∀ component ∈ components.reverse, Named component :=
    fun component member => named component (List.mem_reverse.1 member)
  rw [get?_function built, findSome?_calleesIn? backwards, lastDeclaring?,
    List.getLast?_eq_head?_reverse, ← List.filter_reverse, List.head?_filter]

theorem of_lastDeclaring? {owner : Text} {function : Atom} {record : Component}
    (isLast : lastDeclaring? components owner function = some record) :
    record ∈ components ∧ record.id = owner ∧ (declared record).contains function = true := by
  have member := List.mem_of_getLast? isLast
  rw [List.mem_filter, declares, Bool.and_eq_true, beq_iff_eq] at member
  exact member

theorem exists_lastDeclaring? {record : Component} (member : record ∈ components) {function : Atom}
    (isDeclared : (declared record).contains function = true) :
    ∃ last, lastDeclaring? components record.id function = some last := by
  have found : record ∈ components.filter (declares record.id function) := by
    rw [List.mem_filter, declares, isDeclared]
    exact ⟨member, by simp⟩
  exact ⟨_, List.getLast?_eq_some_getLast (List.ne_nil_of_mem found)⟩

/-- A function calls what the last record that declares it lists for it, and nothing else. -/
theorem edge_function_iff (named : ∀ component ∈ components, Named component)
    (built : ofComponents components catalog = .ok graph) {owner : Text} {caller : Atom}
    {target : Vertex} :
    graph.Edge (.function owner caller) target ↔
      ∃ last, lastDeclaring? components owner caller = some last ∧
        ∃ callee, target = .function owner callee ∧ Calls last caller callee := by
  rw [Digraph.Edge, Digraph.targets, get?_function_eq named built]
  cases found : lastDeclaring? components owner caller with
  | none => simp
  | some last =>
      rcases of_lastDeclaring? found with ⟨-, isOwner, isDeclared⟩
      rw [Option.map_some, Option.getD_some, contains_calleeVertices, isOwner]
      simp [Calls, isDeclared]

/-- A record of an identifier that no other record has is the last one to declare its functions. -/
theorem eq_of_lastDeclaring? (distinct : (components.map Component.id).Nodup)
    {record last : Component} (member : record ∈ components) {function : Atom}
    (isLast : lastDeclaring? components record.id function = some last) : last = record := by
  rcases of_lastDeclaring? isLast with ⟨lastMember, sameId, -⟩
  exact List.inj_on_of_nodup_map distinct lastMember member sameId

end Built

/-- The calls of the call graph are those of the last record that declares the calling function. So
no call of any record is lost exactly if last records list all that others of their identifier list
for their functions, which they do where no two records share an identifier. -/
theorem calls_of_last_declaration {components : List Component}
    (named : ∀ component ∈ components, Named component) (catalog : Catalog) :
    ∃ graph, ofComponents components catalog = .ok graph ∧
      (∀ owner caller target, graph.Edge (.function owner caller) target ↔
        ∃ last, lastDeclaring? components owner caller = some last ∧
          ∃ callee, target = .function owner callee ∧ Calls last caller callee) ∧
      ((∀ record ∈ components, ∀ caller callee, Calls record caller callee →
          graph.Edge (.function record.id caller) (.function record.id callee)) ↔
        ∀ record ∈ components, ∀ caller last,
          lastDeclaring? components record.id caller = some last →
          ∀ callee, Calls record caller callee → Calls last caller callee) ∧
      ((components.map Component.id).Nodup →
        ∀ record ∈ components, ∀ caller target, graph.Edge (.function record.id caller) target ↔
          ∃ callee, target = .function record.id callee ∧ Calls record caller callee) := by
  rcases exists_ofComponents named catalog with ⟨graph, built⟩
  refine ⟨graph, built, fun _ _ _ => edge_function_iff named built, ?_, ?_⟩
  · constructor
    · intro kept record member caller last isLast callee calls
      have edge := kept record member caller callee calls
      rw [edge_function_iff named built, isLast] at edge
      rcases edge with ⟨other, isOther, same, isSame, otherCalls⟩
      cases isOther
      cases isSame
      exact otherCalls
    · intro complete record member caller callee calls
      rcases exists_lastDeclaring? member calls.1 with ⟨last, isLast⟩
      rw [edge_function_iff named built]
      exact ⟨last, isLast, callee, rfl, complete record member caller last isLast callee calls⟩
  · intro distinct record member caller target
    rw [edge_function_iff named built]
    constructor
    · intro edge
      rcases edge with ⟨last, isLast, callee, isTarget, calls⟩
      rw [eq_of_lastDeclaring? distinct member isLast] at calls
      exact ⟨callee, isTarget, calls⟩
    · intro isCall
      rcases isCall with ⟨callee, isTarget, calls⟩
      rcases exists_lastDeclaring? member calls.1 with ⟨last, isLast⟩
      rw [← eq_of_lastDeclaring? distinct member isLast] at calls
      exact ⟨last, isLast, callee, isTarget, calls⟩

/-- A record of a component with one function and one callee of it. -/
def half (callee : Text) : Component where
  name := .text "Widget"
  path := .text "src/Widget.tsx"
  functions := some [.text "render"]
  calls := some (Table.ofList [("render", [.text callee])])

/-- Two records of one component that list different callees for the same function. -/
def halves : List Component := [half "layout", half "paint"]

/-- A function of that component. -/
def widgetFunction (name : Text) : Vertex := .function "src/Widget.tsx#Widget" (.text name)

theorem halves_call_as_last :
    (∀ component ∈ halves, Named component) ∧
    ∃ graph, ofComponents halves {} = .ok graph ∧
      graph.Edge (widgetFunction "render") (widgetFunction "paint") ∧
      ∀ target, graph.Edge (widgetFunction "render") target → target = widgetFunction "paint" := by
  have named : ∀ component ∈ halves, Named component := by decide +kernel
  rcases calls_of_last_declaration named {} with ⟨graph, built, exactly, -⟩
  have isLast : lastDeclaring? halves "src/Widget.tsx#Widget" (.text "render") =
      some (half "paint") := rfl
  have isListed : listed (half "paint") (.text "render") = [.text "paint"] := by decide +kernel
  refine ⟨named, graph, built, ?_, ?_⟩
  · rw [widgetFunction, exactly]
    exact ⟨_, isLast, .text "paint", rfl, by decide +kernel, by decide +kernel⟩
  · intro target edge
    rw [widgetFunction, exactly, isLast] at edge
    rcases edge with ⟨last, isSecond, callee, rfl, calls⟩
    cases isSecond
    have isPaint : (callee == .text "paint") = true := by simpa [isListed] using calls.2
    rw [Atom.eq_of_beq_text isPaint]
    rfl

/-- What the first record lists is lost. -/
theorem halves_lose_call :
    half "layout" ∈ halves ∧ Calls (half "layout") (.text "render") (.text "layout") ∧
    widgetFunction "render" = .function (half "layout").id (.text "render") ∧
    ∃ graph, ofComponents halves {} = .ok graph ∧
      ¬ graph.Edge (widgetFunction "render") (widgetFunction "layout") := by
  have built : ofComponents halves {} = .ok (Table.ofList
      [(.component "src/Widget.tsx#Widget", []),
       (widgetFunction "render", [widgetFunction "paint"])]) := by
    decide +kernel
  have calls : Calls (half "layout") (.text "render") (.text "layout") := by
    unfold Calls
    decide +kernel
  refine ⟨List.mem_cons_self, calls, by decide +kernel, _, built, ?_⟩
  rw [Digraph.Edge]
  decide +kernel

end ImportAtlas.CallGraph
