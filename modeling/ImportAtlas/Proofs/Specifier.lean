import ImportAtlas.Proofs.Text
import ImportAtlas.Specifier

/-!
# Laws of import specifiers

A specifier is a path with something in front of it, an alias and relative steps, and something
behind it, a source extension. Cleaning leaves such a specifier as it is, and reading it takes
both off again, so the first key that it is looked up under is the path seen from the project
root.
-/

namespace ImportAtlas.Specifier

open Text

/-! ## Quotes -/

/-- No quote occurs in a text. -/
def Unquoted (text : Text) : Prop := .char '"' ∉ text ∧ .char '\'' ∉ text

instance (text : Text) : Decidable (Unquoted text) :=
  inferInstanceAs (Decidable (_ ∧ _))

theorem Unquoted.append {left right : Text} (leftUnquoted : Unquoted left)
    (rightUnquoted : Unquoted right) : Unquoted (left ++ right) := by
  simp_all [Unquoted]

theorem Unquoted.of_subset {part text : Text} (unquoted : Unquoted text) (subset : part ⊆ text) :
    Unquoted part :=
  ⟨fun member => unquoted.1 (subset member), fun member => unquoted.2 (subset member)⟩

/-- Cleaning keeps a text without quotes and without blanks at its ends. -/
theorem clean_eq_self {text : Text} (unquoted : Unquoted text) (unpadded : Unpadded text) :
    clean text = text := by
  have kept : (text.filter fun point : CodePoint => point ≠ '"' && point ≠ '\'') = text := by
    rw [List.filter_eq_self]
    intro point member
    have notDouble : point ≠ .char '"' := fun equal => unquoted.1 (equal ▸ member)
    have notSingle : point ≠ .char '\'' := fun equal => unquoted.2 (equal ▸ member)
    simp [notDouble, notSingle]
  rw [clean, kept, unpadded.trim_eq_self]

theorem unquoted_clean (specifier : Text) : Unquoted (clean specifier) := by
  have kept := (trim_sublist (specifier.filter fun point => point ≠ '"' && point ≠ '\'')).subset
  constructor
  · intro member
    simpa using (List.mem_filter.1 (kept member)).2
  · intro member
    simpa using (List.mem_filter.1 (kept member)).2

/-- Cleaning leaves nothing to clean. -/
theorem clean_clean (specifier : Text) : clean (clean specifier) = clean specifier :=
  clean_eq_self (unquoted_clean specifier) (unpadded_trim _)

/-! ## What may stand in front of a path -/

/-- Aliases of the project root. -/
def rootAliases : List Text := ["@/", "~/", "#/"]

/-- Steps that do not count when a path is seen from the project root. -/
def pathSteps : List Text := ["./", "../", "/"]

/-- At most one alias, then any number of steps. -/
inductive IsInternalStart : Text → Prop where
  | steps {steps : List Text} (each : ∀ step ∈ steps, step ∈ pathSteps) :
      IsInternalStart steps.flatten
  | aliased {root : Text} {steps : List Text} (isAlias : root ∈ rootAliases)
      (each : ∀ step ∈ steps, step ∈ pathSteps) : IsInternalStart (root ++ steps.flatten)

/-- A path that does not begin with an alias. -/
def Rootless (path : Text) : Prop := ∀ root ∈ rootAliases, ¬ root <+: path

/-- A path that does not begin with a step. -/
def Stepless (path : Text) : Prop := ∀ step ∈ pathSteps, ¬ step <+: path

instance (path : Text) : Decidable (Rootless path) :=
  inferInstanceAs (Decidable (∀ root ∈ rootAliases, ¬ root <+: path))

instance (path : Text) : Decidable (Stepless path) :=
  inferInstanceAs (Decidable (∀ step ∈ pathSteps, ¬ step <+: path))

/-- Aliases and steps hold a slash. -/
theorem slash_mem_of_piece : ∀ piece ∈ rootAliases ++ pathSteps, .char '/' ∈ piece := by
  decide

theorem Rootless.of_slashless {path : Text} (slashless : .char '/' ∉ path) : Rootless path := by
  intro root isAlias begins
  exact slashless (begins.subset (slash_mem_of_piece root (List.mem_append_left _ isAlias)))

theorem Stepless.of_slashless {path : Text} (slashless : .char '/' ∉ path) : Stepless path := by
  intro step isStep begins
  exact slashless (begins.subset (slash_mem_of_piece step (List.mem_append_right _ isStep)))

theorem dropAlias_append {root : Text} (isAlias : root ∈ rootAliases) (path : Text) :
    dropAlias (root ++ path) = path := by
  simp only [rootAliases, List.mem_cons, List.not_mem_nil, or_false] at isAlias
  rcases isAlias with rfl | rfl | rfl <;> rfl

theorem dropAlias_step_append {step : Text} (isStep : step ∈ pathSteps) (path : Text) :
    dropAlias (step ++ path) = step ++ path := by
  simp only [pathSteps, List.mem_cons, List.not_mem_nil, or_false] at isStep
  rcases isStep with rfl | rfl | rfl <;> rfl

theorem dropSteps_append {step : Text} (isStep : step ∈ pathSteps) (path : Text) :
    dropSteps (step ++ path) = dropSteps path := by
  simp only [pathSteps, List.mem_cons, List.not_mem_nil, or_false] at isStep
  rcases isStep with rfl | rfl | rfl <;> simp [dropSteps, Text.ofString]

theorem dropSteps_alias_append {root : Text} (isAlias : root ∈ rootAliases) (path : Text) :
    dropSteps (root ++ path) = root ++ path := by
  simp only [rootAliases, List.mem_cons, List.not_mem_nil, or_false] at isAlias
  rcases isAlias with rfl | rfl | rfl <;> simp [dropSteps, Text.ofString]

theorem dropSteps_flatten_append {steps : List Text} (each : ∀ step ∈ steps, step ∈ pathSteps)
    (path : Text) : dropSteps (steps.flatten ++ path) = dropSteps path := by
  induction steps with
  | nil => rfl
  | cons step rest ih =>
      rw [List.flatten_cons, List.append_assoc, dropSteps_append (each step List.mem_cons_self)]
      exact ih fun other member => each other (List.mem_cons_of_mem step member)

/-- What is dropped is an alias, if anything is. -/
theorem exists_alias (path : Text) :
    dropAlias path = path ∨ ∃ root ∈ rootAliases, path = root ++ dropAlias path := by
  fun_cases dropAlias path with
  | case1 rest => exact .inr ⟨"@/", by simp [rootAliases], rfl⟩
  | case2 rest => exact .inr ⟨"~/", by simp [rootAliases], rfl⟩
  | case3 rest => exact .inr ⟨"#/", by simp [rootAliases], rfl⟩
  | case4 path => exact .inl rfl

/-- What is dropped are steps. -/
theorem exists_steps (path : Text) :
    ∃ steps : List Text, (∀ step ∈ steps, step ∈ pathSteps) ∧
      path = steps.flatten ++ dropSteps path := by
  have more : ∀ (step : Text) {rest : Text}, step ∈ pathSteps →
      (∃ steps : List Text, (∀ other ∈ steps, other ∈ pathSteps) ∧
        rest = steps.flatten ++ dropSteps rest) →
      ∃ steps : List Text, (∀ other ∈ steps, other ∈ pathSteps) ∧
        step ++ rest = steps.flatten ++ dropSteps rest := by
    rintro step rest isStep ⟨steps, each, split⟩
    refine ⟨step :: steps, ?_, ?_⟩
    · simpa [isStep] using each
    · rw [List.flatten_cons, List.append_assoc, ← split]
  fun_induction dropSteps path with
  | case1 rest ih => exact more "./" (by simp [pathSteps]) ih
  | case2 rest ih => exact more "../" (by simp [pathSteps]) ih
  | case3 rest ih => exact more "/" (by simp [pathSteps]) ih
  | case4 path => exact ⟨[], by simp, rfl⟩

theorem Rootless.dropAlias_eq {path : Text} (rootless : Rootless path) : dropAlias path = path := by
  rcases exists_alias path with kept | ⟨root, isAlias, split⟩
  · exact kept
  · exact absurd ⟨dropAlias path, split.symm⟩ (rootless root isAlias)

theorem Stepless.dropSteps_eq {path : Text} (stepless : Stepless path) : dropSteps path = path := by
  rcases exists_steps path with ⟨steps, each, split⟩
  cases steps with
  | nil => exact split.symm
  | cons step rest =>
      have begins : step <+: path := ⟨rest.flatten ++ dropSteps path, by simpa using split.symm⟩
      exact absurd begins (stepless step (each step List.mem_cons_self))

/-- What is dropped is an internal start. -/
theorem exists_internalStart (path : Text) :
    ∃ start, IsInternalStart start ∧ path = start ++ dropInternalStart path := by
  rcases exists_steps (dropAlias path) with ⟨steps, each, split⟩
  rcases exists_alias path with kept | ⟨root, isAlias, isAliased⟩
  · refine ⟨steps.flatten, .steps each, ?_⟩
    rw [dropInternalStart, ← split, kept]
  · refine ⟨root ++ steps.flatten, .aliased isAlias each, ?_⟩
    rw [dropInternalStart, List.append_assoc, ← split]
    exact isAliased

theorem dropInternalStart_suffix (path : Text) : dropInternalStart path <:+ path := by
  rcases exists_internalStart path with ⟨start, -, split⟩
  exact ⟨start, split.symm⟩

theorem ne_nil_of_dropInternalStart {path : Text} (rooted : dropInternalStart path ≠ []) :
    path ≠ [] := by
  intro isEmpty
  subst isEmpty
  exact rooted rfl

theorem dropInternalStart_eq_self {path : Text} (rootless : Rootless path)
    (stepless : Stepless path) : dropInternalStart path = path := by
  rw [dropInternalStart, rootless.dropAlias_eq, stepless.dropSteps_eq]

namespace IsInternalStart

variable {start : Text}

/-- A start that is not empty is dropped whole, and an alias behind it is not one. -/
theorem dropInternalStart_append (isStart : IsInternalStart start) (nonempty : start ≠ [])
    (path : Text) : dropInternalStart (start ++ path) = dropSteps path := by
  cases isStart with
  | @steps steps each =>
      cases steps with
      | nil => exact absurd rfl nonempty
      | cons step rest =>
          rw [dropInternalStart, List.flatten_cons, List.append_assoc,
            dropAlias_step_append (each step List.mem_cons_self), ← List.append_assoc,
            ← List.flatten_cons, dropSteps_flatten_append each]
  | aliased isAlias each =>
      rw [dropInternalStart, List.append_assoc, dropAlias_append isAlias,
        dropSteps_flatten_append each]

/-- A start does not change how a path without an alias is seen from the project root. -/
theorem dropInternalStart_append_rootless (isStart : IsInternalStart start) {path : Text}
    (rootless : Rootless path) : dropInternalStart (start ++ path) = dropInternalStart path := by
  by_cases isEmpty : start = []
  · rw [isEmpty, List.nil_append]
  · rw [isStart.dropInternalStart_append isEmpty, dropInternalStart, rootless.dropAlias_eq]

theorem dropInternalStart_append_eq_self (isStart : IsInternalStart start) {path : Text}
    (rootless : Rootless path) (stepless : Stepless path) :
    dropInternalStart (start ++ path) = path := by
  rw [isStart.dropInternalStart_append_rootless rootless,
    dropInternalStart_eq_self rootless stepless]

/-- Behind a start a path is seen as it is without one, or an alias of its own keeps it whole. -/
theorem dropInternalStart_append_or (isStart : IsInternalStart start) (path : Text) :
    dropInternalStart (start ++ path) = dropInternalStart path ∨
      dropInternalStart (start ++ path) = path := by
  by_cases rootless : Rootless path
  · exact .inl (isStart.dropInternalStart_append_rootless rootless)
  · by_cases isEmpty : start = []
    · exact .inl (by rw [isEmpty, List.nil_append])
    · right
      simp only [Rootless, not_forall, not_not] at rootless
      rcases rootless with ⟨root, isAlias, rest, rfl⟩
      rw [isStart.dropInternalStart_append isEmpty, dropSteps_alias_append isAlias]

/-- A start is made of code points of aliases and steps. -/
theorem exists_mem (isStart : IsInternalStart start) {point : CodePoint} (member : point ∈ start) :
    ∃ piece ∈ rootAliases ++ pathSteps, point ∈ piece := by
  cases isStart with
  | steps each =>
      rcases List.mem_flatten.1 member with ⟨step, isStep, inStep⟩
      exact ⟨step, List.mem_append_right _ (each step isStep), inStep⟩
  | @aliased root steps isAlias each =>
      rcases List.mem_append.1 member with inRoot | inSteps
      · exact ⟨root, List.mem_append_left _ isAlias, inRoot⟩
      · rcases List.mem_flatten.1 inSteps with ⟨step, isStep, inStep⟩
        exact ⟨step, List.mem_append_right _ (each step isStep), inStep⟩

theorem solid (isStart : IsInternalStart start) : ∀ point ∈ start, isBlank point = false := by
  intro point member
  rcases isStart.exists_mem member with ⟨piece, isPiece, inPiece⟩
  have pieces : ∀ piece ∈ rootAliases ++ pathSteps, ∀ point ∈ piece, isBlank point = false := by
    decide
  exact pieces piece isPiece point inPiece

theorem unquoted (isStart : IsInternalStart start) : Unquoted start := by
  have pieces : ∀ piece ∈ rootAliases ++ pathSteps, Unquoted piece := by decide
  constructor
  · intro member
    rcases isStart.exists_mem member with ⟨piece, isPiece, inPiece⟩
    exact (pieces piece isPiece).1 inPiece
  · intro member
    rcases isStart.exists_mem member with ⟨piece, isPiece, inPiece⟩
    exact (pieces piece isPiece).2 inPiece

/-- A start that is not empty ends with a slash. -/
theorem eq_nil_or_slash (isStart : IsInternalStart start) :
    start = [] ∨ ∃ before, start = before ++ [.char '/'] := by
  have ends : ∀ piece ∈ rootAliases ++ pathSteps, piece = piece.dropLast ++ [.char '/'] := by
    decide
  have flattened : ∀ {steps : List Text}, (∀ step ∈ steps, step ∈ pathSteps) →
      steps.flatten = [] ∨ ∃ before, steps.flatten = before ++ [.char '/'] := by
    intro steps each
    rcases List.eq_nil_or_concat steps with rfl | ⟨earlier, last, rfl⟩
    · exact .inl rfl
    · have isStep := ends last (List.mem_append_right _ (each last (by simp)))
      refine .inr ⟨earlier.flatten ++ last.dropLast, ?_⟩
      rw [List.concat_eq_append, List.flatten_append, List.append_assoc, ← isStep]
      simp
  cases isStart with
  | steps each => exact flattened each
  | @aliased root steps isAlias each =>
      right
      rcases flattened each with isEmpty | ⟨before, split⟩
      · exact ⟨root.dropLast, by rw [isEmpty, List.append_nil, ← ends root (by simp [isAlias])]⟩
      · exact ⟨root ++ before, by rw [split, List.append_assoc]⟩

end IsInternalStart

/-- Something is left of a path that does not end with a slash. -/
theorem dropInternalStart_ne_nil {path : Text} (nonempty : path ≠ [])
    (noSlash : path.getLast? ≠ some (.char '/')) : dropInternalStart path ≠ [] := by
  intro isEmpty
  rcases exists_internalStart path with ⟨start, isStart, split⟩
  rw [isEmpty, List.append_nil] at split
  subst split
  rcases isStart.eq_nil_or_slash with rfl | ⟨before, rfl⟩
  · exact nonempty rfl
  · simp at noSlash

/-! ## What may stand behind a path -/

/-- A source extension, or nothing if the path does not end with one itself. -/
inductive IsExtensionOf (stem : Text) : Text → Prop where
  | source {extension : Text} (isSource : extension ∈ sourceExtensions) :
      IsExtensionOf stem extension
  | none (bare : ∀ other ∈ sourceExtensions, ¬ other <:+ stem) : IsExtensionOf stem []

/-- No source extension ends with another. -/
theorem sourceExtension_eq_of_suffix :
    ∀ shorter ∈ sourceExtensions, ∀ longer ∈ sourceExtensions, shorter <:+ longer →
      shorter = longer := by
  decide

/-- A text ends with one source extension at most. -/
theorem sourceExtension_unique {text left right : Text} (leftSource : left ∈ sourceExtensions)
    (rightSource : right ∈ sourceExtensions) (leftEnds : left <:+ text)
    (rightEnds : right <:+ text) : left = right := by
  cases List.suffix_or_suffix_of_suffix leftEnds rightEnds with
  | inl short => exact sourceExtension_eq_of_suffix left leftSource right rightSource short
  | inr long => exact (sourceExtension_eq_of_suffix right rightSource left leftSource long).symm

namespace IsExtensionOf

variable {stem extension : Text}

theorem solid (isExtension : IsExtensionOf stem extension) :
    ∀ point ∈ extension, isBlank point = false := by
  cases isExtension with
  | source isSource =>
      have sources : ∀ source ∈ sourceExtensions, ∀ point ∈ source, isBlank point = false := by
        decide
      exact sources extension isSource
  | none bare => simp

theorem unquoted (isExtension : IsExtensionOf stem extension) : Unquoted extension := by
  cases isExtension with
  | source isSource =>
      have sources : ∀ source ∈ sourceExtensions, Unquoted source := by decide
      exact sources extension isSource
  | none bare => simp [Unquoted]

/-- No source extension holds a slash, so the last part of a path decides. -/
theorem behind_slash (isExtension : IsExtensionOf stem extension) (before : Text) :
    IsExtensionOf (before ++ .char '/' :: stem) extension := by
  cases isExtension with
  | source isSource => exact .source isSource
  | none bare =>
      apply IsExtensionOf.none
      intro other isSource ends
      have slashless : ∀ source ∈ sourceExtensions, .char '/' ∉ source := by decide
      exact bare other isSource (suffix_of_suffix_append_cons (slashless other isSource) ends)

theorem behind_start {start : Text} (isExtension : IsExtensionOf stem extension)
    (isStart : IsInternalStart start) : IsExtensionOf (start ++ stem) extension := by
  rcases isStart.eq_nil_or_slash with rfl | ⟨before, rfl⟩
  · exact isExtension
  · rw [List.append_assoc]
    exact isExtension.behind_slash before

/-- What may stand behind a path may stand behind an end of it. -/
theorem of_suffix {tail : Text} (isExtension : IsExtensionOf stem extension)
    (suffix : tail <:+ stem) : IsExtensionOf tail extension := by
  cases isExtension with
  | source isSource => exact .source isSource
  | none bare => exact .none fun other isSource ends => bare other isSource (ends.trans suffix)

theorem dropExtensionAtEnd_append (isExtension : IsExtensionOf stem extension) :
    dropExtensionAtEnd (stem ++ extension) = stem := by
  rw [dropExtensionAtEnd]
  cases found : sourceExtensions.find? fun source => endsWith (stem ++ extension) source with
  | none =>
      rw [List.find?_eq_none] at found
      cases isExtension with
      | source isSource => simpa [endsWith] using found extension isSource
      | none bare => simp
  | some other =>
      have otherSource := List.mem_of_find?_eq_some found
      have otherEnds : other <:+ stem ++ extension := by
        simpa [endsWith] using List.find?_some found
      cases isExtension with
      | source isSource =>
          have equal := sourceExtension_unique otherSource isSource otherEnds
            (List.suffix_append stem extension)
          simp [equal]
      | none bare => exact absurd (by simpa using otherEnds) (bare other otherSource)

/-- The extension is what is dropped from a path that ends without a blank. -/
theorem dropSourceExtension_append (isExtension : IsExtensionOf stem extension)
    (unpadded : Unpadded stem) : dropSourceExtension (stem ++ extension) = stem := by
  have noNewline : (stem ++ extension).getLast? ≠ some (.char '\n') := by
    intro isLast
    have blank := (unpadded.append_right isExtension.solid).last _ isLast
    revert blank
    decide
  rw [dropSourceExtension, if_neg noNewline, isExtension.dropExtensionAtEnd_append]

end IsExtensionOf

/-! ## Keys -/

theorem head?_importKeys {specifier path : Text}
    (isPath : dropInternalStart (dropSourceExtension specifier) = path) (nonempty : path ≠ []) :
    (importKeys specifier).head? = some path := by
  simp [importKeys, isPath, nonempty]

/-- The first key of a specifier is the path between its start and its extension, seen from the
project root. -/
theorem head?_importKeys_append {start stem extension : Text} (isStart : IsInternalStart start)
    (isExtension : IsExtensionOf stem extension) (unpadded : Unpadded stem)
    (nonempty : dropInternalStart (start ++ stem) ≠ []) :
    (importKeys (start ++ stem ++ extension)).head? = some (dropInternalStart (start ++ stem)) := by
  have startUnpadded : Unpadded (start ++ stem) := unpadded.append_left isStart.solid
  apply head?_importKeys _ nonempty
  rw [(isExtension.behind_start isStart).dropSourceExtension_append startUnpadded]

end ImportAtlas.Specifier
