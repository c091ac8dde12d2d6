import ImportAtlas.Proofs.References

/-!
# Path aliases in configuration files

A reference through an alias of the project root means a file, and its name should not count as a
package. Whether a name is an alias is asked after the name has been cut out of the specifier, and
the cut can take away the slash that shows it: `~/x`, `#/x` and `src/x` leave `~`, `#` and `src`,
and `@/` leaves `@` where no piece follows the slash. These are all the ways in which an alias gets
through. Relative paths have no name to begin with, and `@/x` is still an alias after the cut.
-/

namespace ImportAtlas

open Text

namespace Specifier

variable {specifier name piece rest text : Text}

/-! ## What an alias begins with -/

/-- Aliases of a directory, which a slash and a path follow. -/
def bareAliases : List Text := ["~", "#", "src"]

theorem slash_notMem_of_mem_bareAliases (isBare : piece ∈ bareAliases) : .char '/' ∉ piece := by
  have slashless : ∀ piece ∈ bareAliases, .char '/' ∉ piece := by decide
  exact slashless piece isBare

/-- A path alias is a relative path, or it begins with the scope sign or a bare alias and a
slash. -/
theorem alias_cases (isAlias : isPathAlias text = true) :
    (∃ rest, text = .char '.' :: rest) ∨ (∃ rest, text = .char '@' :: .char '/' :: rest) ∨
      ∃ piece ∈ bareAliases, ∃ rest, text = piece ++ .char '/' :: rest := by
  rcases List.any_eq_true.1 isAlias with ⟨start, isStart, begins⟩
  rcases List.isPrefixOf_iff_prefix.1 begins with ⟨rest, rfl⟩
  simp only [aliasStarts, List.mem_cons, List.not_mem_nil, or_false] at isStart
  rcases isStart with rfl | rfl | rfl | rfl | rfl | rfl
  · exact .inr (.inl ⟨rest, rfl⟩)
  · exact .inr (.inr ⟨"~", by decide, rest, rfl⟩)
  · exact .inr (.inr ⟨"#", by decide, rest, rfl⟩)
  · exact .inr (.inr ⟨"src", by decide, rest, rfl⟩)
  · exact .inl ⟨_, rfl⟩
  · exact .inl ⟨_, rfl⟩

theorem isPathAlias_of_isPrefix (isAlias : isPathAlias name = true) (begins : name <+: text) :
    isPathAlias text = true := by
  rw [isPathAlias, List.any_eq_true] at isAlias ⊢
  rcases isAlias with ⟨start, isStart, startsName⟩
  exact ⟨start, isStart, List.isPrefixOf_iff_prefix.2
    ((List.isPrefixOf_iff_prefix.1 startsName).trans begins)⟩

/-! ## What is cut out of an alias -/

theorem packageName?_of_dot (relative : clean specifier = .char '.' :: rest) :
    packageName? specifier = none := by
  rw [packageName?, if_pos]
  simp [relative, startsWith, Text.ofString]

/-- Behind the scope sign the next piece is kept, unless it is empty. -/
theorem packageName?_of_sign (begins : clean specifier = .char '@' :: .char '/' :: rest) :
    packageName? specifier =
      some (if firstSegment '/' rest = [] then [.char '@']
        else .char '@' :: .char '/' :: firstSegment '/' rest) := by
  have cut : segments '/' (clean specifier) = [.char '@'] :: segments '/' rest := by
    rw [begins]
    rfl
  rw [packageName?_of_begins begins (by decide) (by decide), cut]
  have isHead := head?_segments '/' rest
  cases pieces : segments '/' rest with
  | nil => exact absurd pieces (segments_ne_nil _ _)
  | cons package others =>
      rw [pieces, List.head?_cons, Option.some.injEq] at isHead
      by_cases empty : firstSegment '/' rest = [] <;>
        simp [isHead, empty, startsWith, Text.ofString]

/-- Of a bare alias nothing but the alias is kept. -/
theorem packageName?_of_bare (isBare : piece ∈ bareAliases)
    (begins : clean specifier = piece ++ .char '/' :: rest) :
    packageName? specifier = some piece := by
  have isFirst : firstSegment '/' (clean specifier) = piece := by
    have isHead := head?_segments '/' (clean specifier)
    rw [begins, segments_append_cons,
      segments_of_notMem (slash_notMem_of_mem_bareAliases isBare)] at isHead
    rw [begins]
    exact (Option.some.inj isHead).symm
  have unscoped : ∀ piece ∈ bareAliases, ∃ first others, piece = first :: others ∧
      first ≠ .char '.' ∧ first ≠ .char '@' := by
    simp [bareAliases, Text.ofString]
  rcases unscoped piece isBare with ⟨first, others, rfl, noDot, noScope⟩
  exact packageName?_unscoped isFirst noDot noScope

end Specifier

namespace References

open Specifier

variable {specifier name text : Text}

/-! ## Aliases that get through -/

/-- A path through an alias that counts as a package of this name. -/
def Leaks (specifier name : Text) : Prop :=
  (name ∈ bareAliases ∧ name ++ [.char '/'] <+: clean specifier) ∨
    (name = [.char '@'] ∧
      (clean specifier = [.char '@', .char '/'] ∨
        [.char '@', .char '/', .char '/'] <+: clean specifier))

theorem firstSegment_eq_nil_iff {separator : CodePoint} :
    firstSegment separator text = [] ↔ text = [] ∨ [separator] <+: text := by
  cases text with
  | nil => simp [firstSegment]
  | cons point rest => by_cases same : point = separator <;> simp [firstSegment, same, Ne.symm]

theorem Leaks.isPathAlias (leaks : Leaks specifier name) :
    isPathAlias (clean specifier) = true := by
  rcases leaks with ⟨isBare, begins⟩ | ⟨-, ended | begins⟩
  · have isAlias : ∀ piece ∈ bareAliases, Specifier.isPathAlias (piece ++ [.char '/']) = true := by
      decide
    exact isPathAlias_of_isPrefix (isAlias name isBare) begins
  · rw [ended]
    decide
  · exact isPathAlias_of_isPrefix (by decide) begins

theorem Leaks.packageName?_eq (leaks : Leaks specifier name) :
    packageName? specifier = some name := by
  rcases leaks with ⟨isBare, rest, whole⟩ | ⟨rfl, behindSlash⟩
  · rw [List.append_assoc, List.singleton_append] at whole
    exact packageName?_of_bare isBare whole.symm
  · have begins : ∃ rest, clean specifier = .char '@' :: .char '/' :: rest ∧
        firstSegment '/' rest = [] := by
      rcases behindSlash with ended | ⟨rest, whole⟩
      · exact ⟨[], ended, rfl⟩
      · exact ⟨.char '/' :: rest, whole.symm, rfl⟩
    rcases begins with ⟨rest, begins, empty⟩
    rw [packageName?_of_sign begins, if_pos empty]

/-- No alias gets through in any other way. -/
theorem leaks_of_package? (isAlias : isPathAlias (clean specifier) = true)
    (counted : package? specifier = some name) : Leaks specifier name := by
  rw [package?_eq_some_iff] at counted
  rcases counted with ⟨named, noAlias⟩
  rcases alias_cases isAlias with ⟨rest, relative⟩ | ⟨rest, signed⟩ | ⟨piece, isBare, rest, bare⟩
  · rw [packageName?_of_dot relative] at named
    cases named
  · rw [packageName?_of_sign signed, Option.some.injEq] at named
    split at named
    · rename_i empty
      right
      refine ⟨named.symm, ?_⟩
      rw [signed]
      cases firstSegment_eq_nil_iff.1 empty with
      | inl ended => exact .inl (by rw [ended])
      | inr begins => exact .inr (by simpa using begins)
    · -- With a piece behind the slash the name still begins as an alias does, and is dropped.
      rw [← named] at noAlias
      exact absurd noAlias (by simp [Specifier.isPathAlias, aliasStarts, startsWith, Text.ofString])
  · rw [packageName?_of_bare isBare bare, Option.some.injEq] at named
    left
    rw [← named, bare]
    exact ⟨isBare, rest, by simp⟩

/-- A specifier counts under a name exactly if it means a package of this name and is no alias, or
if it is an alias that gets through. -/
theorem package?_eq_some_iff_leaks :
    package? specifier = some name ↔
      (packageName? specifier = some name ∧ isPathAlias (clean specifier) = false) ∨
        Leaks specifier name := by
  constructor
  · intro counted
    cases isAlias : isPathAlias (clean specifier) with
    | true => exact .inr (leaks_of_package? isAlias counted)
    | false => exact .inl ⟨(package?_eq_some_iff.1 counted).1, rfl⟩
  · intro source
    rw [package?_eq_some_iff]
    rcases source with ⟨named, noAlias⟩ | leaks
    · refine ⟨named, Bool.eq_false_iff.2 fun isAlias => ?_⟩
      have begins : name <+: clean specifier := by
        cases eq_or_prefix_of_packageName? named with
        | inl whole => exact whole ▸ List.prefix_refl _
        | inr behind => exact (List.prefix_append _ _).trans behind
      rw [isPathAlias_of_isPrefix isAlias begins] at noAlias
      cases noAlias
    · refine ⟨leaks.packageName?_eq, isPathAlias_of_slashless ?_⟩
      rcases leaks with ⟨isBare, -⟩ | ⟨rfl, -⟩
      · exact slash_notMem_of_mem_bareAliases isBare
      · decide

/-! ## Where specifiers stand -/

theorem exists_quotation_of_reference? {rest : Text}
    (found : reference? text = some (specifier, rest)) :
    ∃ behind last, behind <:+ text ∧ Quotation behind specifier last := by
  rw [reference?] at found
  split at found
  · rename_i isCall
    cases found
    simp only [call?, Option.bind_eq_bind, Option.bind_eq_some_iff] at isCall
    rcases isCall with ⟨behind, worded, inner, opened, ⟨quoted, last⟩, isQuoted, after, -, same⟩
    cases same
    rcases exists_word_of_afterWord? (by simp [words]) worded with ⟨word, -, rfl⟩
    refine ⟨_, last, ?_, quotation_of_quotedText? isQuoted⟩
    exact (List.dropWhile_suffix _).trans
      ((suffix_of_afterMark? opened).trans (List.suffix_append _ _))
  · simp only [statement?, Option.bind_eq_bind, Option.bind_eq_some_iff] at found
    rcases found with ⟨behind, worded, found⟩
    rcases exists_word_of_afterWord? (by simp [words]) worded with ⟨word, -, rfl⟩
    split at found
    · cases found
    · split at found
      · exact ⟨_, rest, (List.dropWhile_suffix _).trans (List.suffix_append _ _),
          quotation_of_quotedText? found⟩
      · cases found

/-- Every specifier that is read stands between quotes. -/
theorem exists_quotation_of_mem {skip : Nat} (isRead : specifier ∈ specifiersFrom skip text) :
    ∃ behind rest, behind <:+ text ∧ Quotation behind specifier rest := by
  have further : ∀ {point : CodePoint} {others : Text},
      (∃ behind rest, behind <:+ others ∧ Quotation behind specifier rest) →
      ∃ behind rest, behind <:+ point :: others ∧ Quotation behind specifier rest := by
    rintro point others ⟨behind, rest, isBehind, quotation⟩
    exact ⟨behind, rest, isBehind.trans (List.suffix_cons point others), quotation⟩
  fun_induction specifiersFrom skip text with
  | case1 => cases isRead
  | case2 point others skip ih => exact further (ih isRead)
  | case3 point others first rest found ih =>
      cases isRead with
      | head => exact exists_quotation_of_reference? found
      | tail _ later => exact further (ih later)
  | case4 point others missed ih => exact further (ih isRead)

/-- The packages of a text are the packages that its specifiers mean, except for specifiers that
are aliases, and the bare aliases that get through. Every specifier stands in the text between
quotes. -/
theorem bare_aliases_get_through (text : Text) :
    (∀ name, name ∈ packages text ↔ ∃ specifier ∈ specifiers text,
      (packageName? specifier = some name ∧ isPathAlias (clean specifier) = false) ∨
        Leaks specifier name) ∧
    (∀ specifier name, Leaks specifier name →
      packageName? specifier = some name ∧ isPathAlias (clean specifier) = true) ∧
    ∀ specifier ∈ specifiers text, ∃ behind rest, behind <:+ text ∧
      Quotation behind specifier rest := by
  refine ⟨?_, ?_, fun specifier isRead => exists_quotation_of_mem isRead⟩
  · intro name
    rw [packages, List.mem_eraseDups, List.mem_filterMap]
    simp only [package?_eq_some_iff_leaks]
  · intro specifier name leaks
    exact ⟨leaks.packageName?_eq, leaks.isPathAlias⟩

/-- An import through an alias. -/
def themed : Text := "import theme from '~/lib/theme'"

/-- The one specifier is an alias, and yet there is a package. -/
theorem tilde_gets_through :
    packages themed = ["~"] ∧
    ∀ specifier ∈ specifiers themed, isPathAlias (clean specifier) = true := by
  decide +kernel

end References

end ImportAtlas
