/-!
# Computations that may fail

A chain of computations that succeeds has succeeded at every link, so what each link keeps is
kept by the chain.
-/

namespace ImportAtlas

variable {ε α β : Type}

theorem bind_eq_ok_iff {first : Except ε α} {next : α → Except ε β} {result : β} :
    (first >>= next) = .ok result ↔ ∃ value, first = .ok value ∧ next value = .ok result := by
  cases first with
  | error fault => simp [bind, Except.bind]
  | ok value => simp [bind, Except.bind]

theorem map_eq_ok_iff {computed : Except ε α} {image : α → β} {result : β} :
    computed.map image = .ok result ↔ ∃ value, computed = .ok value ∧ image value = result := by
  cases computed with
  | error fault => simp [Except.map]
  | ok value => simp [Except.map]

theorem mapError_eq_ok_iff {δ : Type} {computed : Except ε α} {image : ε → δ} {value : α} :
    computed.mapError image = .ok value ↔ computed = .ok value := by
  cases computed with
  | error fault => constructor <;> (intro succeeds; cases succeeds)
  | ok result => constructor <;> (intro succeeds; cases succeeds; rfl)

theorem toOption_eq_some_iff {computed : Except ε α} {value : α} :
    computed.toOption = some value ↔ computed = .ok value := by
  cases computed <;> simp [Except.toOption]

/-- The fault of a computation that fails. -/
def fault? : Except ε α → Option ε
  | .ok _ => none
  | .error fault => some fault

theorem fault?_eq_some_iff {computed : Except ε α} {fault : ε} :
    fault? computed = some fault ↔ computed = .error fault := by
  cases computed <;> simp [fault?]

/-- What every step of a fold keeps, a fold that succeeds keeps. -/
theorem foldlM_induct (property : β → Prop) {step : β → α → Except ε β}
    (keeps : ∀ {before item after}, step before item = .ok after → property before → property after)
    {items : List α} {start result : β} (folded : items.foldlM step start = .ok result)
    (holds : property start) : property result := by
  induction items generalizing start with
  | nil =>
      cases folded
      exact holds
  | cons item rest ih =>
      rw [List.foldlM_cons] at folded
      obtain ⟨next, stepped, folded⟩ := bind_eq_ok_iff.1 folded
      exact ih folded (keeps stepped holds)

theorem exists_foldlM_eq_ok {step : β → α → Except ε β} {items : List α}
    (each : ∀ item ∈ items, ∀ before, ∃ after, step before item = .ok after) (start : β) :
    ∃ result, items.foldlM step start = .ok result := by
  induction items generalizing start with
  | nil => exact ⟨start, rfl⟩
  | cons item rest ih =>
      rcases each item List.mem_cons_self start with ⟨next, stepped⟩
      rcases ih (fun other member => each other (List.mem_cons_of_mem item member)) next with
        ⟨result, folded⟩
      exact ⟨result, by rw [List.foldlM_cons, stepped]; exact folded⟩

theorem exists_mapM_eq_ok {compute : α → Except ε β} {items : List α}
    (each : ∀ item ∈ items, ∃ value, compute item = .ok value) :
    ∃ values, items.mapM compute = .ok values := by
  induction items with
  | nil => exact ⟨[], rfl⟩
  | cons item rest ih =>
      obtain ⟨value, computed⟩ := each item List.mem_cons_self
      obtain ⟨values, others⟩ :=
        ih fun other member => each other (List.mem_cons_of_mem item member)
      exact ⟨value :: values, by rw [List.mapM_cons, computed, others]; rfl⟩

theorem exists_mapM_eq_ok_iff {compute : α → Except ε β} {items : List α} :
    (∃ values, items.mapM compute = .ok values) ↔
      ∀ item ∈ items, ∃ value, compute item = .ok value := by
  refine ⟨?_, exists_mapM_eq_ok⟩
  induction items with
  | nil =>
      intro _ item member
      cases member
  | cons first rest ih =>
      rintro ⟨values, mapped⟩
      rw [List.mapM_cons] at mapped
      obtain ⟨value, computed, mapped⟩ := bind_eq_ok_iff.1 mapped
      obtain ⟨others, restMapped, -⟩ := bind_eq_ok_iff.1 mapped
      exact List.forall_mem_cons.2 ⟨⟨value, computed⟩, ih ⟨others, restMapped⟩⟩

/-- A fold whose steps fail at their items alone computes the values of all items first. -/
theorem foldlM_map {γ : Type} (compute : α → Except ε β) (step : γ → β → γ) (items : List α)
    (start : γ) :
    items.foldlM (fun state item => (compute item).map (step state)) start =
      (items.mapM compute).map fun values => values.foldl step start := by
  induction items generalizing start with
  | nil => rfl
  | cons item rest ih =>
      rw [List.foldlM_cons, List.mapM_cons]
      cases compute item with
      | error fault => rfl
      | ok value =>
          change rest.foldlM _ (step start value) = _
          rw [ih]
          cases rest.mapM compute <;> rfl

/-- The values of a list are those of its items. -/
theorem mem_iff_of_mapM_eq_ok {compute : α → Except ε β} {items : List α} {values : List β}
    (mapped : items.mapM compute = .ok values) {value : β} :
    value ∈ values ↔ ∃ item ∈ items, compute item = .ok value := by
  induction items generalizing values with
  | nil =>
      cases mapped
      simp
  | cons item rest ih =>
      rw [List.mapM_cons] at mapped
      obtain ⟨first, computed, mapped⟩ := bind_eq_ok_iff.1 mapped
      obtain ⟨others, restMapped, mapped⟩ := bind_eq_ok_iff.1 mapped
      cases mapped
      simp [ih restMapped, computed, eq_comm]

/-- Selecting and naming values comes to selecting and naming items, if it does for each value. -/
theorem map_filter_of_mapM_eq_ok {γ : Type} {compute : α → Except ε β} {items : List α}
    {values : List β} (mapped : items.mapM compute = .ok values) {keepItem : α → Bool}
    {keepValue : β → Bool} {nameItem : α → γ} {nameValue : β → γ}
    (agree : ∀ item value, compute item = .ok value →
      keepItem item = keepValue value ∧ nameItem item = nameValue value) :
    (values.filter keepValue).map nameValue = (items.filter keepItem).map nameItem := by
  induction items generalizing values with
  | nil =>
      cases mapped
      rfl
  | cons item rest ih =>
      rw [List.mapM_cons] at mapped
      rcases bind_eq_ok_iff.1 mapped with ⟨first, computed, mapped⟩
      rcases bind_eq_ok_iff.1 mapped with ⟨others, restMapped, mapped⟩
      cases mapped
      rcases agree item first computed with ⟨sameKept, sameName⟩
      rw [List.filter_cons, List.filter_cons, sameKept]
      cases keepValue first <;> simp [ih restMapped, sameName]

theorem map_of_mapM_eq_ok {γ : Type} {compute : α → Except ε β} {items : List α} {values : List β}
    (mapped : items.mapM compute = .ok values) {nameItem : α → γ} {nameValue : β → γ}
    (agree : ∀ item value, compute item = .ok value → nameItem item = nameValue value) :
    values.map nameValue = items.map nameItem := by
  have selected : (values.filter fun _ => true).map nameValue =
      (items.filter fun _ => true).map nameItem := by
    apply map_filter_of_mapM_eq_ok mapped
    intro item value computed
    exact ⟨rfl, agree item value computed⟩
  rwa [List.filter_eq_self.2 fun _ _ => rfl, List.filter_eq_self.2 fun _ _ => rfl] at selected

end ImportAtlas
