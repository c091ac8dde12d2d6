import ImportAtlas.Proofs.Catalog.Index

/-!
# What an import is resolved to

The import index of a catalog is the inverse of the patterns of the kept records, and no pattern
stands in it without a record. So the records alone decide what a specifier is resolved to: of its
keys the first that some kept record has as a pattern, and the kept records that have it.
-/

namespace ImportAtlas.Catalog

open Specifier

variable {components : List Component} {catalog : Catalog}

/-! ## The whole index -/

/-- Whether some kept record has a pattern. -/
def isHeld (components : List Component) (pattern : Atom) : Bool :=
  (kept components).any fun record => record.hasPattern pattern

theorem isHeld_eq_false_iff {pattern : Atom} :
    isHeld components pattern = false ↔ holders components pattern = [] := by
  simp [isHeld, holders]

/-- Entering listings leaves no pattern without an identifier. -/
theorem get?_foldl_enter_ne_nil {listings : List Listing}
    (distinct : ∀ listing ∈ listings, Distinct listing.patterns)
    (full : ∀ pattern, catalog.byImport.get? pattern ≠ some []) (pattern : Atom) :
    (listings.foldl enter catalog).byImport.get? pattern ≠ some [] := by
  induction listings generalizing catalog with
  | nil => exact full pattern
  | cons listing rest ih =>
      rw [List.foldl_cons]
      apply ih
      · intro other member
        exact distinct other (List.mem_cons_of_mem listing member)
      · intro other
        rw [get?_enter (distinct listing List.mem_cons_self)]
        split
        · simp
        · exact full other

/-- The import index holds the patterns of the kept records and nothing else. -/
theorem get?_byImport (built : ofComponents components = .ok catalog) (pattern : Atom) :
    catalog.byImport.get? pattern =
      if isHeld components pattern then some (holders components pattern) else none := by
  have isUnder := under_eq_holders built pattern
  rw [under] at isUnder
  cases found : catalog.byImport.get? pattern with
  | none =>
      rw [found] at isUnder
      have unheld : isHeld components pattern = false := isHeld_eq_false_iff.2 isUnder.symm
      simp [unheld]
  | some ids =>
      rw [found] at isUnder
      have full : ids ≠ [] := by
        rcases exists_listings built with ⟨listings, -, distinct, rfl⟩
        intro isEmpty
        rw [isEmpty] at found
        exact get?_foldl_enter_ne_nil distinct (by intro other; simp [Table.get?]) pattern found
      have isIds : ids = holders components pattern := isUnder
      have held : isHeld components pattern = true := by
        rw [← Bool.not_eq_false, isHeld_eq_false_iff, ← isIds]
        exact full
      simp [held, isIds]

theorem contains_byImport (built : ofComponents components = .ok catalog) (pattern : Atom) :
    catalog.byImport.contains pattern = isHeld components pattern := by
  rw [Bool.eq_iff_iff, Table.contains_eq_contains_keys, Table.contains_keys_iff,
    get?_byImport built]
  cases isHeld components pattern <;> simp

/-! ## Resolving -/

/-- The first of some keys that a kept record has as a pattern. -/
def firstHeld? (components : List Component) (keys : List Text) : Option Text :=
  keys.find? fun key => isHeld components (patternKey key)

theorem underFirstKey_eq (built : ofComponents components = .ok catalog) (keys : List Text) :
    catalog.underFirstKey keys =
      match firstHeld? components keys with
      | some key => holders components (patternKey key)
      | none => [] := by
  induction keys with
  | nil => rfl
  | cons key keys ih =>
      rw [underFirstKey, get?_byImport built, firstHeld?, List.find?_cons]
      cases held : isHeld components (patternKey key) with
      | false => simpa [firstHeld?] using ih
      | true =>
          cases ids : holders components (patternKey key) with
          | nil =>
              rw [isHeld_eq_false_iff.2 ids] at held
              cases held
          | cons id others => simp [ids]

theorem resolve_eq (built : ofComponents components = .ok catalog) (specifier : Text) :
    catalog.resolve specifier =
      if catalog.isExternal specifier then []
      else
        match firstHeld? components (importKeys (clean specifier)) with
        | some key => holders components (patternKey key)
        | none => [] := by
  rw [resolve, isExternal, underFirstKey_eq built]
  by_cases isEmpty : clean specifier = []
  · have noKeys : importKeys [] = [] := by decide
    simp [isEmpty, noKeys, firstHeld?]
  · simp [isEmpty]

theorem isExternal_eq_false {specifier : Text}
    (isInternal : isInternalByForm (clean specifier) = true) :
    catalog.isExternal specifier = false := by
  simp [isExternal, isPackage, isInternal]

/-- An import is resolved to records of the catalog only. -/
theorem mem_ids_of_mem_resolveImport (built : ofComponents components = .ok catalog)
    {specifier : Json} {id : Text} (resolved : id ∈ catalog.resolveImport specifier) :
    id ∈ components.map Component.id := by
  fun_cases resolveImport catalog specifier with
  | case1 specifier =>
      rw [resolveImport, resolve_eq built] at resolved
      split at resolved
      · simp at resolved
      · split at resolved
        · rcases List.mem_map.1 resolved with ⟨record, isHolder, rfl⟩
          apply List.mem_map_of_mem
          exact newRecords_subset [] components (List.mem_filter.1 isHolder).1
        · simp at resolved
  | case2 specifier => simp [resolveImport] at resolved

theorem nodup_holders (components : List Component) (pattern : Atom) :
    (holders components pattern).Nodup :=
  (nodup_ids_kept components).sublist (List.filter_sublist.map Component.id)

/-- Records with texts have a catalog. It resolves a specifier that means no package to the kept
records, in their order and each once, that have the first of its keys that any kept record has;
a specifier that means a package, or none of whose keys any kept record has, to nothing. -/
theorem resolve_first_held_key (textual : ∀ component ∈ components, component.Textual) :
    ∃ catalog, ofComponents components = .ok catalog ∧ ∀ specifier,
      (catalog.resolve specifier).Nodup ∧
      catalog.resolve specifier =
        if catalog.isExternal specifier then []
        else
          match firstHeld? components (importKeys (clean specifier)) with
          | some key => ((kept components).filter fun record =>
              record.hasPattern (patternKey key)).map Component.id
          | none => [] := by
  rcases exists_ofComponents textual with ⟨catalog, built⟩
  refine ⟨catalog, built, ?_⟩
  intro specifier
  have resolved := resolve_eq built specifier
  refine ⟨?_, resolved⟩
  rw [resolved]
  split
  · exact List.nodup_nil
  · split
    · exact nodup_holders components _
    · exact List.nodup_nil

/-- Two files of one name, and a second record of the first file that names another folder. -/
def shelf : List Component :=
  [{ name := .text "Button", path := .text "src/ui/Button.tsx", directory := .text "src/ui" },
   { name := .text "Button", path := .text "src/legacy/Button.tsx" },
   { name := .text "Button", path := .text "src/ui/Button.tsx", directory := .text "old" }]

/-- The folder of the second record counts for nothing, so the whole path is no pattern of any kept
record and the last part decides. -/
theorem shelf_resolves :
    (∀ component ∈ shelf, component.Textual) ∧
    ∃ catalog, ofComponents shelf = .ok catalog ∧
      firstHeld? shelf (importKeys (clean "'../old/Button'")) = some "Button" ∧
      catalog.resolve "'../old/Button'" =
        ["src/ui/Button.tsx#Button", "src/legacy/Button.tsx#Button"] := by
  have textual : ∀ component ∈ shelf, component.Textual := by decide
  rcases resolve_first_held_key textual with ⟨catalog, built, resolves⟩
  have noPackage : catalog.isExternal "'../old/Button'" = false := isExternal_eq_false (by decide)
  have first : firstHeld? shelf (importKeys (clean "'../old/Button'")) = some "Button" := by
    decide +kernel
  refine ⟨textual, catalog, built, first, ?_⟩
  rw [(resolves _).2, noPackage, first]
  decide +kernel

end ImportAtlas.Catalog
