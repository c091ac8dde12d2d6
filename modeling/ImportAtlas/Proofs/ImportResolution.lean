import ImportAtlas.Proofs.Catalog.Index

/-!
# Imports of known files

A specifier that is the path of a known file, whatever aliases and steps stand in front of it and
whatever source extension behind, is resolved to that file: the first key that it is looked up
under is one of the patterns of the file. The same holds of the directory of a barrel file.
-/

namespace ImportAtlas.Catalog

open Text Specifier

variable {catalog : Catalog} {id : Text}

/-! ## Resolving by the first key -/

theorem exists_get?_of_mem_under {pattern : Atom} (indexed : id ∈ catalog.under pattern) :
    ∃ ids, catalog.byImport.get? pattern = some ids ∧ id ∈ ids := by
  rw [under] at indexed
  cases found : catalog.byImport.get? pattern with
  | none => simp [found] at indexed
  | some ids => exact ⟨ids, rfl, by simpa [found] using indexed⟩

/-- A specifier whose first key is known names no package. -/
theorem isPackage_eq_false {specifier key : Text} {keys : List Text}
    (isKeys : importKeys specifier = key :: keys) (indexed : id ∈ catalog.under (patternKey key)) :
    catalog.isPackage specifier = false := by
  rcases exists_get?_of_mem_under indexed with ⟨ids, found, -⟩
  have known : catalog.byImport.contains (patternKey key) = true := by
    rw [Table.contains_eq_contains_keys, Table.contains_keys_iff]
    exact ⟨ids, found⟩
  simp [isPackage, isKeys, known]

/-- What stands under the first key of a specifier is what it is resolved to. -/
theorem mem_resolve_of_head? {specifier key : Text} (cleaned : clean specifier = specifier)
    (first : (importKeys specifier).head? = some key)
    (indexed : id ∈ catalog.under (patternKey key)) : id ∈ catalog.resolve specifier := by
  cases isKeys : importKeys specifier with
  | nil => simp [isKeys] at first
  | cons other keys =>
      obtain rfl : other = key := by simpa [isKeys] using first
      have nonempty : specifier ≠ [] := by
        intro isEmpty
        subst isEmpty
        have noKeys : importKeys [] = [] := by decide
        simp [noKeys] at isKeys
      rcases exists_get?_of_mem_under indexed with ⟨ids, found, member⟩
      cases ids with
      | nil => simp at member
      | cons firstId ids =>
          simpa [resolve, cleaned, nonempty, isPackage_eq_false isKeys indexed, isKeys,
            underFirstKey, found] using member

/-- A specifier is resolved to what stands under the path between its start and its extension,
seen from the project root. -/
theorem mem_resolve_append {start stem extension key : Text} (isStart : IsInternalStart start)
    (isExtension : IsExtensionOf stem extension) (unquoted : Unquoted stem)
    (unpadded : Unpadded stem) (isKey : dropInternalStart (start ++ stem) = key)
    (nonempty : key ≠ []) (indexed : id ∈ catalog.under (.text key)) :
    id ∈ catalog.resolve (start ++ stem ++ extension) := by
  have cleaned : clean (start ++ stem ++ extension) = start ++ stem ++ extension := by
    apply clean_eq_self
    · exact (isStart.unquoted.append unquoted).append isExtension.unquoted
    · exact (unpadded.append_left isStart.solid).append_right isExtension.solid
  apply mem_resolve_of_head? cleaned _ indexed
  subst isKey
  exact head?_importKeys_append isStart isExtension unpadded nonempty

theorem mem_resolve_bare {start path key : Text} (isStart : IsInternalStart start)
    (bare : IsExtensionOf path []) (unquoted : Unquoted path) (unpadded : Unpadded path)
    (isKey : dropInternalStart (start ++ path) = key) (nonempty : key ≠ [])
    (indexed : id ∈ catalog.under (.text key)) : id ∈ catalog.resolve (start ++ path) := by
  rw [← List.append_nil (start ++ path)]
  exact mem_resolve_append isStart bare unquoted unpadded isKey nonempty indexed

/-- The last part of a path is looked up as it is, since it holds no slash. -/
theorem mem_resolve_lastSegment {start path : Text} (isStart : IsInternalStart start)
    (bare : IsExtensionOf path []) (unquoted : Unquoted path)
    (unpadded : Unpadded (lastSegment '/' path)) (nonempty : lastSegment '/' path ≠ [])
    (indexed : id ∈ catalog.under (.text (lastSegment '/' path))) :
    id ∈ catalog.resolve (start ++ lastSegment '/' path) := by
  have slashless := notMem_of_mem_segments (lastSegment_mem_segments '/' path)
  have suffix := lastSegment_suffix '/' path
  have isKey := isStart.dropInternalStart_append_eq_self (.of_slashless slashless)
    (.of_slashless slashless)
  exact mem_resolve_bare isStart (bare.of_suffix suffix) (unquoted.of_subset suffix.subset) unpadded
    isKey nonempty indexed

/-- A file that stands under the patterns of its path is what that path is resolved to. -/
theorem mem_resolve_stem {stem ownExtension folder start extension : Text}
    (indexed : ∀ pattern ∈ Pattern.ofPath (stem ++ ownExtension) folder, pattern ≠ [] →
      id ∈ catalog.under (.text pattern))
    (isOwn : IsExtensionOf stem ownExtension) (unquoted : Unquoted stem)
    (unpadded : Unpadded stem) (rooted : dropInternalStart stem ≠ [])
    (isStart : IsInternalStart start) (isExtension : IsExtensionOf stem extension) :
    id ∈ catalog.resolve (start ++ stem ++ extension) := by
  have nonempty := ne_nil_of_dropInternalStart rooted
  cases isStart.dropInternalStart_append_or stem with
  | inl isKey =>
      apply mem_resolve_append isStart isExtension unquoted unpadded isKey rooted
      exact indexed _ (Pattern.rooted_mem_ofPath isOwn unpadded nonempty) rooted
  | inr isKey =>
      apply mem_resolve_append isStart isExtension unquoted unpadded isKey nonempty
      exact indexed _ (Pattern.stem_mem_ofPath isOwn unpadded nonempty) nonempty

/-! ## Files -/

/-- Records whose fields are texts and whose names do not hold what separates the name from the
path in an identifier. -/
structure Separable (components : List Component) : Prop where
  textual : ∀ component ∈ components, component.Textual
  separated : ∀ component ∈ components, ∀ name ∈ component.name.text?, .char '#' ∉ name

variable {components : List Component} {component : Component} {path : Text}

theorem Separable.each (separable : Separable components) :
    ∀ component ∈ components, component.Separated :=
  fun component member => (separable.textual component member).separated
    (separable.separated component member)

/-- A component stands under the patterns of its path, also if an earlier record of the same
identifier was kept in its place. -/
theorem exists_catalog_indexing (separable : Separable components)
    (member : component ∈ components) (isPath : component.path = .text path) :
    ∃ catalog, ofComponents components = .ok catalog ∧
      ∃ folder, ∀ pattern ∈ Pattern.ofPath (replace '\\' '/' path) folder, pattern ≠ [] →
        component.id ∈ catalog.under (.text pattern) := by
  rcases exists_catalog separable.textual with ⟨catalog, built, indexed⟩
  rcases exists_kept member with ⟨record, isKept, isRecord, sameId⟩
  have samePath : record.path = .text path := by
    rw [← isPath]
    exact (((separable.each record isRecord).id_eq_iff (separable.each component member)).1
      sameId).1
  rcases indexed record isKept with ⟨patterns, made, isUnder⟩
  rcases Component.exists_folder_of_importPatterns samePath made with ⟨folder, hasPatterns⟩
  refine ⟨catalog, built, folder, ?_⟩
  intro pattern isPattern nonempty
  rw [← sameId]
  exact isUnder _ (hasPatterns pattern isPattern nonempty)

/-- A component can be imported by its own path without its extension: behind any alias and any
steps, and with any source extension. If it lies in the source directory, the path may also begin
inside that directory. -/
theorem resolve_own_path (separable : Separable components) (member : component ∈ components)
    (isPath : component.path = .text path) {stem ownExtension : Text}
    (split : replace '\\' '/' path = stem ++ ownExtension)
    (isOwn : IsExtensionOf stem ownExtension) (unquoted : Unquoted stem)
    (unpadded : Unpadded stem) (rooted : dropInternalStart stem ≠ []) :
    ∃ catalog, ofComponents components = .ok catalog ∧
      ∀ start, IsInternalStart start → ∀ extension, IsExtensionOf stem extension →
        component.id ∈ catalog.resolve (start ++ stem ++ extension) ∧
        ∀ rest, dropInternalStart stem = "src/" ++ rest → rest ≠ [] →
          (∀ point ∈ rest.head?, isBlank point = false) → Rootless rest → Stepless rest →
          component.id ∈ catalog.resolve (start ++ rest ++ extension) := by
  rcases exists_catalog_indexing separable member isPath with
    ⟨catalog, built, folder, indexed⟩
  rw [split] at indexed
  refine ⟨catalog, built, ?_⟩
  intro start isStart extension isExtension
  constructor
  · exact mem_resolve_stem indexed isOwn unquoted unpadded rooted isStart isExtension
  · intro rest inSource nonempty first rootless stepless
    have suffix : rest <:+ stem := by
      apply List.IsSuffix.trans _ (dropInternalStart_suffix stem)
      rw [inSource]
      exact List.suffix_append _ _
    have isKey := isStart.dropInternalStart_append_eq_self rootless stepless
    apply mem_resolve_append isStart (isExtension.of_suffix suffix)
      (unquoted.of_subset suffix.subset) (unpadded.of_suffix suffix first) isKey nonempty
    apply indexed rest _ nonempty
    exact Pattern.sourceless_mem_ofPath isOwn unpadded (ne_nil_of_dropInternalStart rooted) inSource

/-- Two records of one file behind an alias, which name different folders, and a barrel file. -/
def panels : List Component :=
  [{ name := .text "Panel", path := .text "~\\src\\Panel.js.tsx", directory := .text "old" },
   { name := .text "Panel", path := .text "~\\src\\Panel.js.tsx", directory := .text "new" },
   { name := .text "ui", path := .text "../lib/ui/index.jsx" }]

theorem panels_separable : Separable panels := by
  constructor
  · decide
  · decide

/-- Behind another alias the path keeps its own, and inside the source directory it needs none. -/
theorem panel_resolves :
    ∃ catalog, ofComponents panels = .ok catalog ∧
      ofString "~\\src\\Panel.js.tsx#Panel" ∈ catalog.resolve "@/../~/src/Panel.js.mjs" ∧
      ofString "~\\src\\Panel.js.tsx#Panel" ∈ catalog.resolve "@/../Panel.js.mjs" := by
  have isStart : IsInternalStart "@/../" :=
    @IsInternalStart.aliased "@/" ["../"] (by decide) (by decide)
  rcases @resolve_own_path panels panels[1] "~\\src\\Panel.js.tsx" panels_separable
    (by simp [panels]) rfl "~/src/Panel.js" ".tsx" (by decide) (.source (by decide))
    (by decide) ⟨by decide, by decide⟩ (by decide) with ⟨catalog, built, resolves⟩
  rcases resolves "@/../" isStart ".mjs" (.source (by decide)) with ⟨whole, inside⟩
  refine ⟨catalog, built, whole, ?_⟩
  exact inside "Panel.js" (by decide) (by decide) (by decide) (by decide) (by decide)

/-- A barrel file can be imported by its directory, with and without its own name, and by the last
part of its directory: behind any alias and any steps. -/
theorem resolve_barrel_directory (separable : Separable components)
    (member : component ∈ components) (isPath : component.path = .text path)
    {directory extension : Text}
    (split : replace '\\' '/' path = directory ++ "/index" ++ extension)
    (isSource : extension ∈ sourceExtensions) (proper : PosixPath.IsProperPath directory)
    (unquoted : Unquoted directory) (unpadded : Unpadded directory)
    (lastUnpadded : Unpadded (lastSegment '/' directory)) (rootless : Rootless directory)
    (bare : ∀ other ∈ sourceExtensions, ¬ other <:+ directory) :
    ∃ catalog, ofComponents components = .ok catalog ∧
      ∀ start, IsInternalStart start →
        component.id ∈ catalog.resolve (start ++ directory) ∧
        component.id ∈ catalog.resolve (start ++ directory ++ "/index") ∧
        component.id ∈ catalog.resolve (start ++ lastSegment '/' directory) := by
  rcases exists_catalog_indexing separable member isPath with
    ⟨catalog, built, folder, indexed⟩
  have slashed : replace '\\' '/' (directory ++ indexEnd ++ extension) =
      directory ++ indexEnd ++ extension := by
    change replace '\\' '/' (directory ++ "/index" ++ extension) =
      directory ++ "/index" ++ extension
    rw [← split, replace_replace]
  rw [split] at indexed
  have indexUnpadded : Unpadded (directory ++ indexEnd) := unpadded.append_right (by decide)
  rcases Pattern.barrel_mem_ofPath folder proper indexUnpadded isSource slashed with
    ⟨directoryIsPattern, lastIsPattern⟩
  refine ⟨catalog, built, ?_⟩
  intro start isStart
  have directoryBare : IsExtensionOf directory [] := .none bare
  refine ⟨?_, ?_, ?_⟩
  · have isKey := isStart.dropInternalStart_append_rootless rootless
    have nonempty := dropInternalStart_ne_nil proper.ne_nil proper.getLast?_ne
    apply mem_resolve_bare isStart directoryBare unquoted unpadded isKey nonempty
    exact indexed _ directoryIsPattern nonempty
  · have nameBare : IsExtensionOf (ofString "index") [] := .none (by decide)
    have indexUnquoted : Unquoted (directory ++ indexEnd) := unquoted.append (by decide)
    have resolved := mem_resolve_stem indexed (.source isSource) indexUnquoted indexUnpadded
      (Pattern.dropInternalStart_indexEnd directory) isStart (nameBare.behind_slash directory)
    rw [List.append_nil, ← List.append_assoc] at resolved
    exact resolved
  · have nonempty := (proper _ (lastSegment_mem_segments '/' directory)).1
    apply mem_resolve_lastSegment isStart directoryBare unquoted lastUnpadded nonempty
    exact indexed _ lastIsPattern nonempty

theorem ui_resolves :
    ∃ catalog, ofComponents panels = .ok catalog ∧
      ofString "../lib/ui/index.jsx#ui" ∈ catalog.resolve ".//../lib/ui" ∧
      ofString "../lib/ui/index.jsx#ui" ∈ catalog.resolve ".//../lib/ui/index" ∧
      ofString "../lib/ui/index.jsx#ui" ∈ catalog.resolve ".//ui" := by
  have isStart : IsInternalStart ".//" := @IsInternalStart.steps ["./", "/"] (by decide)
  rcases @resolve_barrel_directory panels panels[2] "../lib/ui/index.jsx" panels_separable
    (by simp [panels]) rfl "../lib/ui" ".jsx" (by decide) (by decide) (by decide)
    (by decide) ⟨by decide, by decide⟩ ⟨by decide, by decide⟩ (by decide) (by decide)
    with ⟨catalog, built, resolves⟩
  exact ⟨catalog, built, resolves ".//" isStart⟩

end ImportAtlas.Catalog
