import ImportAtlas.Catalog.Pattern
import ImportAtlas.Proofs.Distinct
import ImportAtlas.Proofs.Except
import ImportAtlas.Proofs.Specifier

/-!
# Import patterns of a path

What the patterns of a component hold: its path without the extension, that path seen from the
project root and from the source directory, and for a barrel file its directory and the last part
of it.
-/

namespace ImportAtlas

open Text

namespace PosixPath

variable {directory file : Text}

theorem parts_ofText_append (proper : isProper file = true) (slashless : .char '/' ∉ file) :
    (ofText (directory ++ .char '/' :: file)).parts =
      (segments '/' directory).filter isProper ++ [file] := by
  simp [ofText, segments_append_cons, segments_of_notMem slashless, proper]

theorem name_ofText_append (proper : isProper file = true) (slashless : .char '/' ∉ file) :
    (ofText (directory ++ .char '/' :: file)).name = file := by
  simp [name, parts_ofText_append proper slashless]

theorem rootOf_eq_nil {text : Text} (noSlash : text.head? ≠ some (.char '/')) :
    rootOf text = [] := by
  fun_cases rootOf text <;> simp_all

theorem text_parts (path : Text) : (⟨[], segments '/' path⟩ : PosixPath).text = path := by
  have notEmpty : (segments '/' path).isEmpty = false := by simp [segments_ne_nil]
  rw [text]
  simp only [notEmpty, Bool.and_false, Bool.false_eq_true, if_false, List.nil_append]
  exact join_segments '/' path

theorem name_parts (path : Text) :
    (⟨[], segments '/' path⟩ : PosixPath).name = lastSegment '/' path := by
  simp [name, getLast?_segments]

/-- A path whose parts are neither empty nor single dots. -/
def IsProperPath (path : Text) : Prop :=
  ∀ part ∈ segments '/' path, part ≠ [] ∧ part ≠ Text.ofString "."

instance (path : Text) : Decidable (IsProperPath path) :=
  inferInstanceAs (Decidable (∀ part ∈ segments '/' path, part ≠ [] ∧ part ≠ Text.ofString "."))

namespace IsProperPath

theorem ne_nil (proper : IsProperPath directory) : directory ≠ [] := by
  intro isEmpty
  subst isEmpty
  exact (proper [] (by simp [segments])).1 rfl

/-- There is no empty part in front of a slash at the start. -/
theorem head?_ne (proper : IsProperPath directory) : directory.head? ≠ some (.char '/') := by
  intro isFirst
  cases directory with
  | nil => simp at isFirst
  | cons first rest =>
      obtain rfl : first = .char '/' := by simpa using isFirst
      exact (proper [] (by simp [segments])).1 rfl

/-- There is no empty part behind a slash at the end. -/
theorem getLast?_ne (proper : IsProperPath directory) :
    directory.getLast? ≠ some (.char '/') := by
  intro isLast
  rcases List.getLast?_eq_some_iff.1 isLast with ⟨before, rfl⟩
  exact (proper [] (by simp [segments_append_cons, segments])).1 rfl

theorem filter_segments (proper : IsProperPath directory) :
    (segments '/' directory).filter isProper = segments '/' directory := by
  rw [List.filter_eq_self]
  intro part member
  simp [isProper, proper part member]

/-- The parent of a file is its directory. -/
theorem parent_ofText_append (proper : IsProperPath directory) (fileProper : isProper file = true)
    (slashless : .char '/' ∉ file) :
    (ofText (directory ++ .char '/' :: file)).parent = ⟨[], segments '/' directory⟩ := by
  have noSlash : (directory ++ .char '/' :: file).head? ≠ some (.char '/') := by
    rw [List.head?_append_of_ne_nil _ proper.ne_nil]
    exact proper.head?_ne
  rw [parent, parts_ofText_append fileProper slashless, proper.filter_segments,
    List.dropLast_concat]
  simp [ofText, rootOf_eq_nil noSlash]

end IsProperPath

end PosixPath

namespace Pattern

open Specifier

variable {stem extension directory folder : Text}

/-! ## A path without its extension -/

section OwnPath

variable (isExtension : IsExtensionOf stem extension) (unpadded : Unpadded stem)
  (nonempty : stem ≠ [])

include isExtension unpadded nonempty

theorem stem_mem_ofPath : stem ∈ ofPath (stem ++ extension) folder := by
  simp [ofPath, nonempty, isExtension.dropSourceExtension_append unpadded]

theorem rooted_mem_ofPath : dropInternalStart stem ∈ ofPath (stem ++ extension) folder := by
  simp [ofPath, nonempty, isExtension.dropSourceExtension_append unpadded]

theorem sourceless_mem_ofPath {rest : Text}
    (inSource : dropInternalStart stem = sourceStart ++ rest) :
    rest ∈ ofPath (stem ++ extension) folder := by
  have isRest : rest ∈ withoutSource (dropInternalStart stem) := by
    rw [inSource, withoutSource, List.isPrefixOf?_eq_some_iff_append_eq.2 rfl]
    simp
  simp [ofPath, nonempty, isExtension.dropSourceExtension_append unpadded, isRest]

end OwnPath

/-! ## Barrel files -/

/-- The stem of a barrel file. -/
theorem fileStem_barrel (isSource : extension ∈ sourceExtensions)
    (slashed : replace '\\' '/' (directory ++ indexEnd ++ extension) =
      directory ++ indexEnd ++ extension) :
    fileStem (directory ++ indexEnd ++ extension) = "index" := by
  have names : ∀ source ∈ sourceExtensions, PosixPath.isProper (ofString "index" ++ source) = true ∧
      .char '/' ∉ ofString "index" ++ source ∧
      PosixPath.stemOf (ofString "index" ++ source) = "index" := by
    decide
  rcases names extension isSource with ⟨proper, slashless, isStem⟩
  have split : directory ++ indexEnd ++ extension =
      directory ++ .char '/' :: (ofString "index" ++ extension) := by
    rw [List.append_assoc]
    rfl
  rw [fileStem, slashed, split, PosixPath.stem, PosixPath.name_ofText_append proper slashless]
  exact isStem

theorem barrel_eq (proper : PosixPath.IsProperPath directory) :
    barrel (directory ++ indexEnd) =
      lastSegment '/' directory :: dropInternalStart directory ::
        withoutSource (dropInternalStart directory) := by
  have isParent :
      (PosixPath.ofText (directory ++ indexEnd)).parent = ⟨[], segments '/' directory⟩ :=
    proper.parent_ofText_append (by decide) (by decide)
  have named : lastSegment '/' directory ≠ [] :=
    (proper _ (lastSegment_mem_segments '/' directory)).1
  rw [barrel, isParent, PosixPath.name_parts, PosixPath.text_parts, if_pos named]

theorem dropInternalStart_indexEnd (directory : Text) :
    dropInternalStart (directory ++ indexEnd) ≠ [] := by
  have isLast : (directory ++ indexEnd).getLast? = some (.char 'x') := by
    rw [List.getLast?_append]
    rfl
  apply dropInternalStart_ne_nil
  · simp [indexEnd, ofString]
  · simp [isLast]

/-- A barrel file is known by its directory and by the last part of it. -/
theorem barrel_mem_ofPath (folder : Text) (proper : PosixPath.IsProperPath directory)
    (unpadded : Unpadded (directory ++ indexEnd)) (isSource : extension ∈ sourceExtensions)
    (slashed : replace '\\' '/' (directory ++ indexEnd ++ extension) =
      directory ++ indexEnd ++ extension) :
    dropInternalStart directory ∈ ofPath (directory ++ indexEnd ++ extension) folder ∧
      lastSegment '/' directory ∈ ofPath (directory ++ indexEnd ++ extension) folder := by
  have isExtension : IsExtensionOf (directory ++ indexEnd) extension := .source isSource
  have stem := isExtension.dropSourceExtension_append unpadded
  have nonempty : directory ++ indexEnd ++ extension ≠ [] := by simp [proper.ne_nil]
  simp only [ofPath, nonempty, if_false, stem, fileStem_barrel isSource slashed, if_true,
    barrel_eq proper, List.mem_append, List.mem_cons]
  constructor
  · simp
  · simp

end Pattern

/-! ## Records with texts -/

theorem Json.isSome_text?_iff {value : Json} :
    value.text?.isSome = true ↔ ∃ text : Text, value = .text text := by
  fun_cases text? value <;> simp_all

namespace Component

variable {component : Component} {patterns : List Atom}

/-- A record whose name, path and directory are texts. -/
structure Textual (component : Component) : Prop where
  name : ∃ name : Text, component.name = .text name
  path : ∃ path : Text, component.path = .text path
  directory : ∃ directory : Text, component.directory = .text directory

instance (component : Component) : Decidable component.Textual :=
  decidable_of_iff (component.name.text?.isSome = true ∧ component.path.text?.isSome = true ∧
      component.directory.text?.isSome = true) (by
    simp only [Json.isSome_text?_iff]
    exact ⟨fun texts => ⟨texts.1, texts.2.1, texts.2.2⟩,
      fun textual => ⟨textual.name, textual.path, textual.directory⟩⟩)

/-- A record whose path and name are texts, of which the name does not hold what separates the two
in an identifier. -/
structure Separated (component : Component) : Prop where
  path : ∃ path : Text, component.path = .text path
  name : ∃ name : Text, component.name = .text name ∧ .char '#' ∉ name

theorem Textual.separated (textual : component.Textual)
    (free : ∀ name ∈ component.name.text?, .char '#' ∉ name) : component.Separated where
  path := textual.path
  name := by
    rcases textual.name with ⟨name, isName⟩
    exact ⟨name, isName, free name (by rw [isName]; rfl)⟩

/-- The identifier tells the path and the name, since it is cut at its last separator in one way. -/
theorem Separated.id_eq_iff {left right : Component} (leftSeparated : left.Separated)
    (rightSeparated : right.Separated) :
    left.id = right.id ↔ left.path = right.path ∧ left.name = right.name := by
  rcases leftSeparated with ⟨⟨leftPath, isLeftPath⟩, leftName, isLeftName, leftFree⟩
  rcases rightSeparated with ⟨⟨rightPath, isRightPath⟩, rightName, isRightName, rightFree⟩
  constructor
  · intro equal
    have sameText : leftPath ++ .char '#' :: leftName = rightPath ++ .char '#' :: rightName := by
      simp only [id, isLeftName, isLeftPath, isRightName, isRightPath, Json.display_text,
        List.append_assoc] at equal
      exact equal
    rcases append_cons_inj leftFree rightFree sameText with ⟨rfl, rfl⟩
    exact ⟨isLeftPath.trans isRightPath.symm, isLeftName.trans isRightName.symm⟩
  · rintro ⟨samePath, sameName⟩
    rw [id, id, samePath, sameName]

/-- The patterns of a record are its name and those of its path, without repetition. -/
theorem importPatterns_eq_ok (made : component.importPatterns = .ok patterns) :
    ∃ path folder names, component.slashedPath = .ok path ∧
      patterns =
        (names ++ ((Pattern.ofPath path folder).filter (· ≠ [])).map Atom.text).eraseDups := by
  rcases bind_eq_ok_iff.1 made with ⟨path, isPath, made⟩
  rcases bind_eq_ok_iff.1 made with ⟨folder, -, made⟩
  rcases bind_eq_ok_iff.1 made with ⟨names, -, made⟩
  cases made
  exact ⟨path, folder, names, isPath, rfl⟩

theorem distinct_importPatterns (made : component.importPatterns = .ok patterns) :
    Distinct patterns := by
  rcases importPatterns_eq_ok made with ⟨path, folder, names, -, rfl⟩
  exact distinct_eraseDups _

/-- Whether a record can be imported by a pattern. -/
def hasPattern (component : Component) (pattern : Atom) : Bool :=
  match component.importPatterns with
  | .ok patterns => patterns.contains pattern
  | .error _ => false

theorem hasPattern_eq (made : component.importPatterns = .ok patterns) (pattern : Atom) :
    component.hasPattern pattern = patterns.contains pattern := by
  rw [hasPattern, made]

/-- The patterns of a record hold those of its path. -/
theorem exists_folder_of_importPatterns {path : Text} (isPath : component.path = .text path)
    (made : component.importPatterns = .ok patterns) :
    ∃ folder, ∀ pattern ∈ Pattern.ofPath (replace '\\' '/' path) folder, pattern ≠ [] →
      patterns.contains (.text pattern) = true := by
  rcases importPatterns_eq_ok made with ⟨slashed, folder, names, isSlashed, rfl⟩
  rw [slashedPath, isPath] at isSlashed
  cases isSlashed
  refine ⟨folder, ?_⟩
  intro pattern member nonempty
  rw [contains_eraseDups]
  apply List.elem_eq_true_of_mem
  simp [member, nonempty]

theorem Textual.exists_importPatterns (textual : component.Textual) :
    ∃ patterns, component.importPatterns = .ok patterns := by
  rcases textual.name with ⟨name, isName⟩
  rcases textual.path with ⟨path, isPath⟩
  rcases textual.directory with ⟨directory, isDirectory⟩
  have slashed : component.slashedPath = .ok (replace '\\' '/' path) := by
    rw [slashedPath, isPath]
  obtain ⟨folder, isFolder⟩ : ∃ folder,
      component.directoryText (replace '\\' '/' path) = .ok folder := by
    rw [directoryText, isDirectory]
    split <;> exact ⟨_, rfl⟩
  obtain ⟨names, isNames⟩ : ∃ names, component.namePattern = .ok names := by
    rw [namePattern, isName]
    split <;> exact ⟨_, rfl⟩
  exact ⟨_, by rw [importPatterns, slashed]; simp [bind, Except.bind, isFolder, isNames]; rfl⟩

end Component

end ImportAtlas
