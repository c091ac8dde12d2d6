import ImportAtlas.Proofs.CallGraph.Functions
import ImportAtlas.Proofs.Catalog.Pattern
import ImportAtlas.Proofs.Except
import ImportAtlas.Component.Records
import ImportAtlas.Service.Usual

/-!
# Records of a request

Records come in a request or in a file. Those of a request are read by the framework, which is
assumed to take over the fields of the declared types and to fill in the default values. A file is
read as it is: values that are not given are replaced, and records without a name or a path are
passed over. Under the assumption both ways of reading give the same components. The usual framework
satisfies it.
-/

namespace ImportAtlas.Service

/-! ## Fields that are taken over -/

section Fields

variable {α : Type}

def IsText (given : Json) (text : Text) : Prop := given = .text text

def AreTexts (given : Json) (texts : List Text) : Prop := given = .texts texts

/-- An object of lists of texts. If a name is given twice, the last list counts. -/
def AreCalls (given : Json) (calls : Table Text (List Text)) : Prop :=
  ∃ entries : List (Text × List Text),
    given = .obj (entries.map fun entry => (entry.1, .texts entry.2)) ∧
      calls = Table.ofList entries

/-- A value that may be null instead. -/
def OrNull (reads : Json → α → Prop) (given : Json) : Option α → Prop
  | none => given = .null
  | some value => reads given value

/-- The field of a record is taken over, and it has a default value where it is absent. -/
def Field (record : List (Text × Json)) (name : Text) (default : α) (reads : Json → α → Prop)
    (value : α) : Prop :=
  match record.lookup name with
  | none => value = default
  | some given => reads given value

end Fields

/-- All fields of a record are taken over unchanged, and those that are absent have the default
values of an input. -/
structure TakenOver (record : List (Text × Json)) (input : ComponentInput) : Prop where
  name : record.lookup (Text.ofString "name") = some (.text input.name)
  path : record.lookup (Text.ofString "fullPath") = some (.text input.path)
  directory : Field record "directory" [] IsText input.directory
  imports : Field record "imports" [] AreTexts input.imports
  exports : Field record "exports" [] AreTexts input.exports
  functions : Field record "functions" none (OrNull AreTexts) input.functions
  calls : Field record "functionCalls" none (OrNull AreCalls) input.calls
  content : Field record "content" none (OrNull IsText) input.content

/-- A record that gives no field under its second name. -/
structure FirstNamed (record : List (Text × Json)) : Prop where
  pathName : record.lookup (Text.ofString "full_path") = none
  callsName : record.lookup (Text.ofString "function_calls") = none

/-- An input stands for a record. Nothing is said about records that use second names. -/
def StandsFor (record : Json) (input : ComponentInput) : Prop :=
  ∃ fields, record = .obj fields ∧ (FirstNamed fields → TakenOver fields input)

/-- What is assumed of a framework: where it accepts a body, there is an input for each record, in
the same order, and the fields are taken over. -/
def Framework.TakesOver {ρ : Type} (framework : Framework ρ) : Prop :=
  ∀ (body : List (Text × Json)) (records : List Json) (inputs : List ComponentInput),
    body.lookup (Text.ofString "components") = some (.arr records) →
    framework.components (.obj body) = .ok inputs → List.Forall₂ StandsFor records inputs

/-! ## Reading a record as it is -/

/-- The value of a field, null if it is not given. -/
def valueOf (record : List (Text × Json)) (name : Text) : Json := (record.lookup name).getD .null

/-- Functions are read from lists. -/
def functionsIn : Json → Option (List Json)
  | .arr items => some items
  | _ => none

/-- Callees are read from objects. -/
def callsIn : Json → Except Fault (Option (Table Text (List Json)))
  | .obj fields => (Component.callsOf fields).map fun entries => some (Table.ofList entries)
  | _ => .ok none

/-- A record is read field by field. -/
theorem ofFields_eq (record : List (Text × Json)) :
    Component.ofFields record = do
      let name ← Component.required record "name"
      let path ← Component.required record "fullPath"
      let imports ← Component.itemsOf (valueOf record "imports")
      let exports ← Component.itemsOf (valueOf record "exports")
      let calls ← callsIn (valueOf record "functionCalls")
      return {
        name, path, imports, exports, calls
        functions := functionsIn (valueOf record "functions")
        directory :=
          if (valueOf record "directory").isTruthy then valueOf record "directory" else .text ""
        content := valueOf record "content" } := by
  dsimp only [Component.ofFields, valueOf]
  cases (record.lookup (Text.ofString "functionCalls")).getD .null <;> rfl

section Agreement

variable {α : Type} {record : List (Text × Json)} {name : Text}

/-- A field is absent, and then reads as null, or its value is taken over. -/
theorem Field.absent_or_given {default value : α} {reads : Json → α → Prop}
    (taken : Field record name default reads value) :
    valueOf record name = .null ∧ value = default ∨ reads (valueOf record name) value := by
  rw [Field] at taken
  rw [valueOf]
  cases found : record.lookup name with
  | none =>
      rw [found] at taken
      exact .inl ⟨rfl, taken⟩
  | some given =>
      rw [found] at taken
      exact .inr taken

theorem Field.orNull {reads : Json → α → Prop} {value : Option α}
    (taken : Field record name none (OrNull reads) value) :
    OrNull reads (valueOf record name) value := by
  cases taken.absent_or_given with
  | inl absent =>
      rw [absent.2]
      exact absent.1
  | inr given => exact given

theorem directory_of_taken {directory : Text} (taken : Field record name [] IsText directory) :
    (if (valueOf record name).isTruthy then valueOf record name else .text "") =
      .text directory := by
  cases taken.absent_or_given with
  | inl absent =>
      rw [absent.1, absent.2]
      rfl
  | inr given =>
      rw [given]
      cases directory <;> rfl

theorem itemsOf_texts (texts : List Text) :
    Component.itemsOf (.texts texts) = .ok (texts.map Json.text) := by
  cases texts <;> rfl

theorem itemsOf_of_taken {texts : List Text} (taken : Field record name [] AreTexts texts) :
    Component.itemsOf (valueOf record name) = .ok (texts.map Json.text) := by
  cases taken.absent_or_given with
  | inl absent =>
      rw [absent.1, absent.2]
      rfl
  | inr given =>
      rw [given]
      exact itemsOf_texts texts

theorem functionsIn_of_taken {functions : Option (List Text)}
    (taken : Field record name none (OrNull AreTexts) functions) :
    functionsIn (valueOf record name) = functions.map (List.map Json.text) := by
  have given := taken.orNull
  cases functions with
  | none =>
      have isNull : valueOf record name = .null := given
      rw [isNull]
      rfl
  | some texts =>
      have areTexts : valueOf record name = .texts texts := given
      rw [areTexts]
      rfl

theorem callsOf_texts (entries : List (Text × List Text)) :
    Component.callsOf (entries.map fun entry => (entry.1, .texts entry.2)) =
      .ok (entries.map fun entry => (entry.1, entry.2.map Json.text)) := by
  induction entries with
  | nil => rfl
  | cons entry entries ih =>
      rw [List.map_cons, Component.callsOf, itemsOf_texts, ih]
      rfl

theorem callsIn_of_taken {calls : Option (Table Text (List Text))}
    (taken : Field record name none (OrNull AreCalls) calls) :
    callsIn (valueOf record name) =
      .ok (calls.map (Table.mapValues (List.map Json.text))) := by
  have given := taken.orNull
  cases calls with
  | none =>
      have isNull : valueOf record name = .null := given
      rw [isNull]
      rfl
  | some calls =>
      obtain ⟨entries, isObject, rfl⟩ := given
      rw [isObject, callsIn, callsOf_texts, Option.map_some, Table.mapValues_ofList]
      rfl

theorem content_of_taken {content : Option Text}
    (taken : Field record name none (OrNull IsText) content) :
    valueOf record name = (content.map Json.text).getD .null := by
  have given := taken.orNull
  cases content <;> exact given

/-- What is taken over from a record is the component that is read from it. -/
theorem TakenOver.ofFields_eq_ok {input : ComponentInput} (taken : TakenOver record input) :
    Component.ofFields record = .ok input.toComponent := by
  have nameRead : Component.required record "name" = .ok (.text input.name) := by
    rw [Component.required, taken.name]
  have pathRead : Component.required record "fullPath" = .ok (.text input.path) := by
    rw [Component.required, taken.path]
  rw [ofFields_eq, nameRead, pathRead, itemsOf_of_taken taken.imports,
    itemsOf_of_taken taken.exports, callsIn_of_taken taken.calls,
    functionsIn_of_taken taken.functions, directory_of_taken taken.directory,
    content_of_taken taken.content]
  rfl

end Agreement

/-! ## Components of inputs -/

theorem textual_toComponent (input : ComponentInput) : input.toComponent.Textual :=
  ⟨⟨_, rfl⟩, ⟨_, rfl⟩, ⟨_, rfl⟩⟩

theorem named_toComponent (input : ComponentInput) : CallGraph.Named input.toComponent where
  functions := by
    intro functions isFunctions
    obtain ⟨texts, -, rfl⟩ := Option.map_eq_some_iff.1 isFunctions
    rw [List.forall_mem_map]
    exact fun _ _ => rfl
  callees := by
    intro calls isCalls entry isEntry
    obtain ⟨table, -, rfl⟩ := Option.map_eq_some_iff.1 isCalls
    obtain ⟨written, -, rfl⟩ := List.mem_map.1 isEntry
    rw [List.forall_mem_map]
    exact fun _ _ => rfl

/-! ## Lists of records -/

/-- A record as the source parser writes it: its name and its path are not empty, and no field has
its second name. -/
structure Written (record : List (Text × Json)) : Prop extends FirstNamed record where
  name : record.lookup (Text.ofString "name") ≠ some (.text [])
  path : record.lookup (Text.ofString "fullPath") ≠ some (.text [])

theorem Written.usable?_eq_some {record : List (Text × Json)} {input : ComponentInput}
    (written : Written record) (taken : TakenOver record input) :
    Records.usable? (.obj record) = some record := by
  have nameGiven : input.name ≠ [] := fun empty => written.name (empty ▸ taken.name)
  have pathGiven : input.path ≠ [] := fun empty => written.path (empty ▸ taken.path)
  simp [Records.usable?, taken.name, taken.path, Json.isTruthy, Atom.isTruthy, nameGiven,
    pathGiven]

/-- Written records are read as they are without passing over any. -/
theorem components_of_standsFor {records : List Json} {inputs : List ComponentInput}
    (standFor : List.Forall₂ StandsFor records inputs)
    (written : ∀ record, .obj record ∈ records → Written record) :
    Records.components records = .ok (inputs.map ComponentInput.toComponent) ∧
      ∀ position, Records.skippedFrom position records = [] := by
  induction standFor with
  | nil => exact ⟨rfl, fun _ => rfl⟩
  | @cons value input records inputs first _ ih =>
      obtain ⟨record, rfl, takenOver⟩ := first
      have isWritten := written record List.mem_cons_self
      have taken := takenOver isWritten.toFirstNamed
      obtain ⟨othersRead, noneSkipped⟩ :=
        ih fun other isOther => written other (List.mem_cons_of_mem _ isOther)
      have usable := isWritten.usable?_eq_some taken
      constructor
      · rw [Records.components, usable]
        exact bind_eq_ok_iff.2
          ⟨_, taken.ofFields_eq_ok, bind_eq_ok_iff.2 ⟨_, othersRead, rfl⟩⟩
      · intro position
        rw [Records.skippedFrom, usable]
        simp only [taken.ofFields_eq_ok]
        exact noneSkipped (position + 1)

variable {body : List (Text × Json)} {records : List Json} {inputs : List ComponentInput}

/-- Where a framework that takes over fields accepts a body, reading the body as the data of a file
gives the same components, in the same order, and nothing is noticed. -/
theorem Framework.TakesOver.parse_eq_ok {ρ : Type} {framework : Framework ρ}
    (takesOver : framework.TakesOver)
    (listed : body.lookup (Text.ofString "components") = some (.arr records))
    (written : ∀ record, .obj record ∈ records → Written record)
    (accepted : framework.components (.obj body) = .ok inputs) :
    Records.parse (.obj body) = .ok (inputs.map ComponentInput.toComponent) ∧
      Records.notices (.obj body) = [] ∧ inputs.length = records.length := by
  have standFor := takesOver body records inputs listed accepted
  obtain ⟨read, noneSkipped⟩ := components_of_standsFor standFor written
  have isData : Records.ofData (.obj body) = .ok records := by
    rw [Records.ofData]
    simp only [Json.field?, listed, Option.getD_some]
  refine ⟨bind_eq_ok_iff.2 ⟨records, isData, read⟩, ?_, standFor.length_eq.symm⟩
  rw [Records.notices, isData]
  simp [Records.skipped, noneSkipped]

/-! ## The usual framework -/

namespace Checked

variable {α β : Type}

theorem within_eq_ok_iff {step : Step} {checked : Checked α} {value : α} :
    checked.within step = .ok value ↔ checked = .ok value :=
  mapError_eq_ok_iff

theorem and_eq_ok_iff {left : Checked α} {right : Checked β} {pair : α × β} :
    left.and right = .ok pair ↔ left = .ok pair.1 ∧ right = .ok pair.2 := by
  cases left <;> cases right <;> simp [Checked.and, Prod.ext_iff]

theorem isText_of_text {value : Json} {result : Text} (passed : text value = .ok result) :
    IsText value result := by
  revert passed
  fun_cases text value with
  | case1 content broken => exact nofun
  | case2 content whole =>
      intro passed
      exact congrArg Json.text (Except.ok.inj passed)
  | case3 value notText => exact nofun

theorem required_eq_ok {record : List (Text × Json)} {name : Text} {check : Json → Checked α}
    {result : α} (passed : required record name [] check = .ok result) :
    ∃ value, record.lookup name = some value ∧ check value = .ok result := by
  cases found : record.lookup name with
  | none => simp [required, find?, found, refuse, within_eq_ok_iff] at passed
  | some value =>
      simp only [required, find?, found, within_eq_ok_iff] at passed
      exact ⟨value, rfl, passed⟩

/-- A field that may be left out is taken over as its check takes over values. -/
theorem field_of_optional {record : List (Text × Json)} {name : Text} {default : α}
    {check : Json → Checked α} {reads : Json → α → Prop}
    (sound : ∀ {value result}, check value = .ok result → reads value result) {result : α}
    (passed : optional record [name] default check = .ok result) :
    Field record name default reads result := by
  rw [Field]
  cases found : record.lookup name with
  | none =>
      simp only [optional, find?, found, Except.ok.injEq] at passed
      exact passed.symm
  | some value =>
      simp only [optional, find?, found, within_eq_ok_iff] at passed
      exact sound passed

/-- A second name makes no difference where it is not used. -/
theorem find?_pair {record : List (Text × Json)} {name other : Text}
    (unused : record.lookup other = none) : find? record [name, other] = find? record [name] := by
  cases found : record.lookup name with
  | none => simp [find?, found, unused]
  | some value => simp [find?, found]

theorem orNull_of_nullable {check : Json → Checked α} {reads : Json → α → Prop}
    (sound : ∀ {value result}, check value = .ok result → reads value result)
    {value : Json} {result : Option α} (passed : nullable check value = .ok result) :
    OrNull reads value result := by
  revert passed
  fun_cases nullable check value with
  | case1 =>
      intro passed
      rw [← Except.ok.inj passed]
      exact rfl
  | case2 value given =>
      intro passed
      obtain ⟨content, isContent, rfl⟩ := map_eq_ok_iff.1 passed
      exact sound isContent

/-- Every item of a list is taken over as its check takes over values. -/
theorem forall₂_of_itemsFrom {check : Json → Checked α} {reads : Json → α → Prop}
    (sound : ∀ {value result}, check value = .ok result → reads value result)
    {start : Nat} {items : List Json} {results : List α}
    (passed : itemsFrom check start items = .ok results) : List.Forall₂ reads items results := by
  induction items generalizing start results with
  | nil =>
      rw [← Except.ok.inj passed]
      exact .nil
  | cons item items ih =>
      obtain ⟨⟨first, others⟩, both, rfl⟩ := map_eq_ok_iff.1 passed
      obtain ⟨firstPassed, othersPassed⟩ := and_eq_ok_iff.1 both
      exact .cons (sound (within_eq_ok_iff.1 firstPassed)) (ih othersPassed)

end Checked

theorem areTexts_of_texts {value : Json} {results : List Text}
    (passed : Shape.texts value = .ok results) : AreTexts value results := by
  cases value with
  | atom | obj => cases passed
  | arr items =>
      have each : List.Forall₂ Eq items (results.map Json.text) :=
        List.forall₂_map_right_iff.2 (Checked.forall₂_of_itemsFrom Checked.isText_of_text passed)
      rw [List.forall₂_eq_eq_eq] at each
      exact congrArg Json.arr each

theorem eq_map_of_fields {fields : List (Text × Json)} {entries : List (Text × List Text)}
    (passed : Checked.fields Shape.texts fields = .ok entries) :
    fields = entries.map fun entry => (entry.1, .texts entry.2) := by
  induction fields generalizing entries with
  | nil =>
      obtain rfl := Except.ok.inj passed
      rfl
  | cons field fields ih =>
      obtain ⟨⟨first, others⟩, both, rfl⟩ := map_eq_ok_iff.1 passed
      obtain ⟨firstPassed, othersPassed⟩ := Checked.and_eq_ok_iff.1 both
      rw [Checked.within_eq_ok_iff, Checked.and_eq_ok_iff] at firstPassed
      obtain ⟨namePassed, textsPassed⟩ := firstPassed
      have sameName : Json.text field.1 = .text first.1 := Checked.isText_of_text namePassed
      have sameTexts : field.2 = .texts first.2 := areTexts_of_texts textsPassed
      have sameField : field = (first.1, .texts first.2) :=
        Prod.ext (by simpa using sameName) sameTexts
      rw [List.map_cons, ← ih othersPassed, ← sameField]

theorem areCalls_of_object {value : Json} {entries : List (Text × List Text)}
    (passed : Checked.object Shape.texts value = .ok entries) :
    AreCalls value (Table.ofList entries) := by
  cases value with
  | atom | arr => cases passed
  | obj fields => exact ⟨entries, congrArg Json.obj (eq_map_of_fields passed), rfl⟩

theorem Field.map {α β : Type} {record : List (Text × Json)} {name : Text}
    {reads : Json → β → Prop} {image : α → β} {value : Option α}
    (taken : Field record name none (OrNull fun given value => reads given (image value)) value) :
    Field record name none (OrNull reads) (value.map image) := by
  rw [Field] at taken ⊢
  split at taken
  · rw [taken]
    rfl
  · cases value <;> exact taken

/-- A record of the declared types is taken over. -/
theorem takenOver_of_component {record : List (Text × Json)} {input : ComponentInput}
    (firstNamed : FirstNamed record) (passed : Shape.component (.obj record) = .ok input) :
    TakenOver record input := by
  obtain ⟨⟨name, path, directory, imports, exports, functions, calls, content⟩, all, rfl⟩ :=
    map_eq_ok_iff.1 passed
  simp only [Checked.and_eq_ok_iff] at all
  obtain ⟨namePassed, pathPassed, directoryPassed, importsPassed, exportsPassed, functionsPassed,
    callsPassed, contentPassed⟩ := all
  rw [Checked.required, Checked.find?_pair firstNamed.pathName] at pathPassed
  rw [Checked.optional, Checked.find?_pair firstNamed.callsName] at callsPassed
  obtain ⟨nameValue, isName, nameText⟩ := Checked.required_eq_ok namePassed
  obtain ⟨pathValue, isPath, pathText⟩ := Checked.required_eq_ok pathPassed
  exact {
    name := isName.trans (congrArg some (Checked.isText_of_text nameText))
    path := isPath.trans (congrArg some (Checked.isText_of_text pathText))
    directory := Checked.field_of_optional Checked.isText_of_text directoryPassed
    imports := Checked.field_of_optional areTexts_of_texts importsPassed
    exports := Checked.field_of_optional areTexts_of_texts exportsPassed
    functions :=
      Checked.field_of_optional (Checked.orNull_of_nullable areTexts_of_texts) functionsPassed
    calls := Field.map <|
      Checked.field_of_optional (Checked.orNull_of_nullable areCalls_of_object) callsPassed
    content :=
      Checked.field_of_optional (Checked.orNull_of_nullable Checked.isText_of_text) contentPassed }

theorem standsFor_of_component {record : Json} {input : ComponentInput}
    (passed : Shape.component record = .ok input) : StandsFor record input := by
  cases record with
  | atom | arr => cases passed
  | obj fields => exact ⟨fields, rfl, fun firstNamed => takenOver_of_component firstNamed passed⟩

/-- The usual framework takes over what it accepts. -/
theorem takesOver_usual (publish : Json → Json) : (usual publish).TakesOver := by
  intro body records inputs listed accepted
  have passed : Shape.components body = .ok inputs :=
    Checked.within_eq_ok_iff.1 (mapError_eq_ok_iff.1 accepted)
  obtain ⟨value, isValue, checked⟩ := Checked.required_eq_ok passed
  obtain rfl := Option.some.inj (listed.symm.trans isValue)
  exact Checked.forall₂_of_itemsFrom standsFor_of_component checked

end ImportAtlas.Service
