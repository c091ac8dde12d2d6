import ImportAtlas.Text.Blank
import ImportAtlas.Text.Segment
import Mathlib.Data.List.Basic

/-!
# Laws of texts

Cutting a text at a separator and joining the pieces are the operations of the list library, so
their laws hold here: joining undoes cutting, and a separator between two texts cuts them apart.
A text that neither begins nor ends with a blank has nothing to trim, sorting puts texts in the
order of their code points, and a number is told by its digits.
-/

namespace ImportAtlas

namespace CodePoint

/-- No character lies among the halves. -/
theorem toNat_char_ne_half (value : Char) (offset : Fin 2048) :
    toNat (.char value) ≠ toNat (.half offset) := by
  have valid := value.valid
  simp only [UInt32.isValidChar, Nat.isValidChar] at valid
  simp only [toNat, firstHalf, Char.toNat]
  omega

theorem toNat_injective : Function.Injective toNat := by
  intro left right equal
  cases left with
  | char left =>
      cases right with
      | char right => rw [Char.toNat_inj.1 equal]
      | half right => exact absurd equal (toNat_char_ne_half left right)
  | half left =>
      cases right with
      | char right => exact absurd equal.symm (toNat_char_ne_half right left)
      | half right => rw [Fin.ext (Nat.add_left_cancel equal)]

end CodePoint

namespace Text

variable {separator : CodePoint} {text : Text}

/-! ## Pieces between separators -/

theorem segments_eq_splitOn (separator : CodePoint) (text : Text) :
    segments separator text = text.splitOn separator := by
  induction text with
  | nil => simp [segments]
  | cons point rest ih =>
      rw [segments, List.splitOn_cons_eq_if_modifyHead, ih]
      by_cases equal : point = separator
      · simp [equal]
      · cases pieces : rest.splitOn separator with
        | nil => simp at pieces
        | cons piece others => simp [equal]

theorem join_eq_intercalate (separator : Text) (pieces : List Text) :
    join separator pieces = separator.intercalate pieces := by
  induction pieces with
  | nil => rfl
  | cons piece others ih =>
      cases others with
      | nil => simp [join]
      | cons next others => simp [join, ih, List.intercalate_cons_cons]

/-- Joining undoes cutting. -/
theorem join_segments (separator : CodePoint) (text : Text) :
    join [separator] (segments separator text) = text := by
  rw [join_eq_intercalate, segments_eq_splitOn, List.intercalate_splitOn]

/-- Cutting undoes joining, if no piece holds the separator. -/
theorem segments_join {pieces : List Text} (given : pieces ≠ [])
    (free : ∀ piece ∈ pieces, separator ∉ piece) :
    segments separator (join [separator] pieces) = pieces := by
  rw [join_eq_intercalate, segments_eq_splitOn, List.splitOn_intercalate separator free given]

theorem segments_append_cons (left right : Text) :
    segments separator (left ++ separator :: right) =
      segments separator left ++ segments separator right := by
  simp only [segments_eq_splitOn, List.splitOn_append_cons_self]

theorem segments_of_notMem (free : separator ∉ text) : segments separator text = [text] := by
  rw [segments_eq_splitOn, List.splitOn_eq_singleton free]

/-- No piece holds the separator. -/
theorem notMem_of_mem_segments {piece : Text} (member : piece ∈ segments separator text) :
    separator ∉ piece := by
  induction text generalizing piece with
  | nil =>
      simp only [segments, List.mem_singleton] at member
      simp [member]
  | cons point rest ih =>
      by_cases equal : point = separator
      · simp only [segments, equal, if_true, List.mem_cons] at member
        cases member with
        | inl isEmpty => simp [isEmpty]
        | inr later => exact ih later
      · cases pieces : segments separator rest with
        | nil => exact absurd pieces (segments_ne_nil separator rest)
        | cons first others =>
            simp only [segments, equal, if_false, pieces, List.mem_cons] at member
            cases member with
            | inl isFirst =>
                have free : separator ∉ first := ih (by simp [pieces])
                simp [isFirst, free, Ne.symm equal]
            | inr later => exact ih (by simp [pieces, later])

theorem getLast?_segments (separator : CodePoint) (text : Text) :
    (segments separator text).getLast? = some (lastSegment separator text) :=
  List.getLast?_eq_some_getLast _

theorem lastSegment_mem_segments (separator : CodePoint) (text : Text) :
    lastSegment separator text ∈ segments separator text :=
  List.getLast_mem _

theorem head?_segments (separator : CodePoint) (text : Text) :
    (segments separator text).head? = some (firstSegment separator text) := by
  induction text with
  | nil => rfl
  | cons point rest ih =>
      by_cases equal : point = separator
      · simp [segments, firstSegment, equal]
      · cases pieces : segments separator rest with
        | nil => exact absurd pieces (segments_ne_nil separator rest)
        | cons first others =>
            rw [pieces, List.head?_cons, Option.some.injEq] at ih
            simp [segments, firstSegment, equal, pieces, ih]

theorem firstSegment_isPrefix (separator : CodePoint) (text : Text) :
    firstSegment separator text <+: text :=
  List.takeWhile_prefix _

theorem firstSegment_mem_segments (separator : CodePoint) (text : Text) :
    firstSegment separator text ∈ segments separator text :=
  List.mem_of_mem_head? (head?_segments separator text)

theorem join_cons (between piece : Text) {others : List Text} (given : others ≠ []) :
    join between (piece :: others) = piece ++ between ++ join between others := by
  rw [join_eq_intercalate, List.intercalate_cons_of_ne_nil given, ← join_eq_intercalate]

theorem join_append (between : Text) {front rest : List Text} (frontGiven : front ≠ [])
    (restGiven : rest ≠ []) :
    join between (front ++ rest) = join between front ++ between ++ join between rest := by
  induction front with
  | nil => exact absurd rfl frontGiven
  | cons piece others ih =>
      by_cases last : others = []
      · rw [last, List.singleton_append, join_cons between piece restGiven]
        rfl
      · have given : others ++ rest ≠ [] := by simp [last]
        rw [List.cons_append, join_cons between piece given, join_cons between piece last, ih last]
        simp only [List.append_assoc]

theorem mem_join_of_mem {between piece : Text} {pieces : List Text} (isPiece : piece ∈ pieces)
    {point : CodePoint} (member : point ∈ piece) : point ∈ join between pieces := by
  induction pieces with
  | nil => cases isPiece
  | cons first others ih =>
      by_cases last : others = []
      · rw [last, List.mem_singleton] at isPiece
        rw [last, ← isPiece]
        exact member
      · rw [join_cons between first last, List.append_assoc]
        cases isPiece with
        | head => exact List.mem_append_left _ member
        | tail _ later =>
            exact List.mem_append_right _ (List.mem_append_right _ (ih later))

theorem mem_or_exists_of_mem_join {between : Text} {pieces : List Text} {point : CodePoint}
    (member : point ∈ join between pieces) :
    point ∈ between ∨ ∃ piece ∈ pieces, point ∈ piece := by
  induction pieces with
  | nil => cases member
  | cons first others ih =>
      by_cases last : others = []
      · rw [last] at member
        exact .inr ⟨first, List.mem_cons_self, member⟩
      · rw [join_cons between first last, List.append_assoc, List.mem_append,
          List.mem_append] at member
        rcases member with inFirst | isBetween | later
        · exact .inr ⟨first, List.mem_cons_self, inFirst⟩
        · exact .inl isBetween
        · exact (ih later).imp_right fun ⟨piece, isPiece, inPiece⟩ =>
            ⟨piece, List.mem_cons_of_mem first isPiece, inPiece⟩

theorem mem_of_mem_segments {piece : Text} (isPiece : piece ∈ segments separator text)
    {point : CodePoint} (member : point ∈ piece) : point ∈ text := by
  rw [← join_segments separator text]
  exact mem_join_of_mem isPiece member

/-- Leading pieces are the whole text, or a separator comes behind them. -/
theorem eq_or_prefix_of_segments {front rest : List Text} (given : front ≠ [])
    (cut : segments separator text = front ++ rest) :
    text = join [separator] front ∨ join [separator] front ++ [separator] <+: text := by
  rw [← join_segments separator text, cut]
  cases rest with
  | nil => exact .inl (by rw [List.append_nil])
  | cons next rest =>
      rw [join_append [separator] given (List.cons_ne_nil next rest)]
      exact .inr (List.prefix_append _ _)

/-- The last piece stands at the end. -/
theorem suffix_join_concat (between : Text) (pieces : List Text) (last : Text) :
    last <:+ join between (pieces ++ [last]) := by
  induction pieces with
  | nil => simp [join]
  | cons piece others ih =>
      have notEmpty : others ++ [last] ≠ [] := by simp
      rw [List.cons_append, join_cons between piece notEmpty]
      exact ih.trans (List.suffix_append _ _)

theorem lastSegment_suffix (separator : CodePoint) (text : Text) :
    lastSegment separator text <:+ text := by
  have split := List.dropLast_append_getLast (segments_ne_nil separator text)
  have suffix := suffix_join_concat [separator] (segments separator text).dropLast
    (lastSegment separator text)
  rwa [lastSegment, split, join_segments] at suffix

/-- A tail without the separator lies behind the last separator. -/
theorem suffix_of_suffix_append_cons {tail before : Text} (free : separator ∉ tail)
    (suffix : tail <:+ before ++ separator :: text) : tail <:+ text := by
  have behind : separator :: text <:+ before ++ separator :: text := List.suffix_append _ _
  cases List.suffix_or_suffix_of_suffix suffix behind with
  | inl short =>
      cases List.suffix_cons_iff.1 short with
      | inl equal => simp [equal] at free
      | inr inside => exact inside
  | inr long => exact absurd (long.subset List.mem_cons_self) free

/-- A beginning without the separator lies before the first separator. -/
theorem prefix_of_prefix_append_cons {start before : Text} (free : separator ∉ start)
    (isStart : start <+: before ++ separator :: text) : start <+: before := by
  rw [← List.reverse_suffix] at isStart ⊢
  rw [List.reverse_append, List.reverse_cons, List.append_assoc, List.singleton_append] at isStart
  exact suffix_of_suffix_append_cons (List.mem_reverse.not.2 free) isStart

theorem lastSegment_append_cons {last : Text} (before : Text) (free : separator ∉ last) :
    lastSegment separator (before ++ separator :: last) = last := by
  apply Option.some.inj
  rw [← getLast?_segments, segments_append_cons, segments_of_notMem free, List.getLast?_concat]

/-- A text is cut at its last separator in one way. -/
theorem append_cons_inj {left right leftLast rightLast : Text} (leftFree : separator ∉ leftLast)
    (rightFree : separator ∉ rightLast)
    (equal : left ++ separator :: leftLast = right ++ separator :: rightLast) :
    left = right ∧ leftLast = rightLast := by
  have cut := congrArg (segments separator) equal
  simp only [segments_append_cons, segments_of_notMem leftFree, segments_of_notMem rightFree] at cut
  rcases List.append_inj' cut rfl with ⟨sameFront, sameLast⟩
  constructor
  · rw [← join_segments separator left, sameFront, join_segments]
  · simpa using sameLast

/-- A text is cut at its first separator in one way. -/
theorem append_cons_inj_first {left right leftRest rightRest : Text} (leftFree : separator ∉ left)
    (rightFree : separator ∉ right)
    (equal : left ++ separator :: leftRest = right ++ separator :: rightRest) :
    left = right ∧ leftRest = rightRest := by
  have backwards := congrArg List.reverse equal
  simp only [List.reverse_append, List.reverse_cons, List.append_assoc, List.singleton_append]
    at backwards
  have cut := append_cons_inj (List.mem_reverse.not.2 leftFree) (List.mem_reverse.not.2 rightFree)
    backwards
  exact ⟨List.reverse_inj.1 cut.2, List.reverse_inj.1 cut.1⟩

/-- Replacing leaves nothing to replace. -/
theorem replace_replace (old new : CodePoint) (text : Text) :
    replace old new (replace old new text) = replace old new text := by
  simp only [replace, List.map_map]
  congr 1
  funext point
  by_cases equal : point = old <;> simp [equal]

/-! ## Trimming -/

theorem dropWhile_eq_self {property : CodePoint → Bool}
    (kept : ∀ point ∈ text.head?, property point = false) : text.dropWhile property = text := by
  cases text with
  | nil => rfl
  | cons first rest => simp [kept first rfl]

/-- Neither the first nor the last code point is blank. -/
structure Unpadded (text : Text) : Prop where
  first : ∀ point ∈ text.head?, isBlank point = false
  last : ∀ point ∈ text.getLast?, isBlank point = false

namespace Unpadded

/-- Code points that are not blank may be put in front. -/
theorem append_left {before : Text} (solid : ∀ point ∈ before, isBlank point = false)
    (unpadded : Unpadded text) : Unpadded (before ++ text) := by
  constructor
  · intro point isFirst
    simp only [List.head?_append, Option.mem_def, Option.or_eq_some_iff] at isFirst
    cases isFirst with
    | inl inFront => exact solid point (List.mem_of_mem_head? inFront)
    | inr inText => exact unpadded.first point inText.2
  · intro point isLast
    simp only [List.getLast?_append, Option.mem_def, Option.or_eq_some_iff] at isLast
    cases isLast with
    | inl inText => exact unpadded.last point inText
    | inr inFront => exact solid point (List.mem_of_mem_getLast? inFront.2)

/-- Code points that are not blank may be put behind. -/
theorem append_right {after : Text} (solid : ∀ point ∈ after, isBlank point = false)
    (unpadded : Unpadded text) : Unpadded (text ++ after) := by
  constructor
  · intro point isFirst
    simp only [List.head?_append, Option.mem_def, Option.or_eq_some_iff] at isFirst
    cases isFirst with
    | inl inText => exact unpadded.first point inText
    | inr behind => exact solid point (List.mem_of_mem_head? behind.2)
  · intro point isLast
    simp only [List.getLast?_append, Option.mem_def, Option.or_eq_some_iff] at isLast
    cases isLast with
    | inl behind => exact solid point (List.mem_of_mem_getLast? behind)
    | inr inText => exact unpadded.last point inText.2

/-- An end of a text that does not begin with a blank. -/
theorem of_suffix {tail : Text} (unpadded : Unpadded text) (suffix : tail <:+ text)
    (first : ∀ point ∈ tail.head?, isBlank point = false) : Unpadded tail := by
  refine ⟨first, ?_⟩
  intro point isLast
  rcases suffix with ⟨before, rfl⟩
  apply unpadded.last point
  simp only [List.getLast?_append, Option.mem_def, Option.or_eq_some_iff]
  exact .inl isLast

theorem trim_eq_self (unpadded : Unpadded text) : trim text = text := by
  have fromEnd : ∀ point ∈ text.reverse.head?, isBlank point = false := by
    rw [List.head?_reverse]
    exact unpadded.last
  simp [trim, trimWhile, dropWhile_eq_self unpadded.first, dropWhile_eq_self fromEnd]

end Unpadded

theorem trimWhile_isPrefix (property : CodePoint → Bool) (text : Text) :
    trimWhile property text <+: text.dropWhile property := by
  rw [trimWhile, ← List.reverse_suffix, List.reverse_reverse]
  exact List.dropWhile_suffix _

theorem trim_sublist (text : Text) : (trim text).Sublist text :=
  (trimWhile_isPrefix isBlank text).sublist.trans (List.dropWhile_sublist _)

theorem unpadded_trim (text : Text) : Unpadded (trim text) := by
  constructor
  · intro point isFirst
    rcases trimWhile_isPrefix isBlank text with ⟨behind, split⟩
    have notBlank := List.head?_dropWhile_not isBlank text
    have isFirstBefore : (text.dropWhile isBlank).head? = some point := by
      rw [← split, List.head?_append, Option.or_eq_some_iff]
      exact .inl isFirst
    rw [isFirstBefore] at notBlank
    exact notBlank
  · intro point isLast
    rw [trim, trimWhile, List.getLast?_reverse] at isLast
    have notBlank := List.head?_dropWhile_not isBlank (text.dropWhile isBlank).reverse
    rw [isLast] at notBlank
    exact notBlank

/-! ## Order -/

/-- The order of code points, taken over to texts as in a dictionary. -/
def Before (left right : Text) : Prop :=
  List.Lex (fun first second : CodePoint => first.toNat < second.toNat) left right

theorem Before.trans {left middle right : Text} (first : Before left middle)
    (second : Before middle right) : Before left right :=
  List.lex_trans Nat.lt_trans first second

theorem Before.ne {left right : Text} (before : Before left right) : left ≠ right := by
  rintro rfl
  exact List.lex_irrefl (fun point => Nat.lt_irrefl point.toNat) left before

theorem le_iff {left right : Text} : left.le right = true ↔ left = right ∨ Before left right := by
  induction left generalizing right with
  | nil =>
      cases right with
      | nil => simp [le]
      | cons other others => simp [le, Before]
  | cons first rest ih =>
      cases right with
      | nil => simp [le, Before]
      | cons other others =>
          rw [Before, List.cons_lex_cons_iff, le]
          by_cases same : first = other
          · simp [same, ih, Before]
          · have different : first.toNat ≠ other.toNat :=
              fun equal => same (CodePoint.toNat_injective equal)
            simp only [same, if_false, CodePoint.le, decide_eq_true_eq, List.cons.injEq, false_and,
              false_or, or_false]
            omega

theorem le_trans {left middle right : Text} (first : left.le middle = true)
    (second : middle.le right = true) : left.le right = true := by
  rw [le_iff] at *
  rcases first with rfl | first
  · exact second
  · rcases second with rfl | second
    · exact .inr first
    · exact .inr (first.trans second)

theorem le_total (left right : Text) : (left.le right || right.le left) = true := by
  induction left generalizing right with
  | nil => simp [le]
  | cons first rest ih =>
      cases right with
      | nil => simp [le]
      | cons other others =>
          by_cases same : first = other
          · simpa [le, same] using ih others
          · simp only [le, same, Ne.symm same, if_false, CodePoint.le, Bool.or_eq_true,
              decide_eq_true_eq]
            omega

theorem mem_sorted {texts : List Text} {text : Text} : text ∈ sorted texts ↔ text ∈ texts :=
  (List.mergeSort_perm texts le).mem_iff

/-- Texts without repetition come out of sorting each strictly before the next. -/
theorem pairwise_before_sorted {texts : List Text} (nodup : texts.Nodup) :
    (sorted texts).Pairwise Before := by
  have inOrder : (sorted texts).Pairwise fun earlier later => earlier.le later = true :=
    @List.pairwise_mergeSort Text le (fun _ _ _ => le_trans) le_total texts
  have stillNodup : (sorted texts).Nodup := (List.mergeSort_perm texts le).symm.nodup nodup
  apply (inOrder.and stillNodup).imp
  rintro earlier later ⟨notAfter, different⟩
  exact (le_iff.1 notAfter).resolve_left different

/-! ## Numbers -/

theorem ofInt_natCast (number : Nat) :
    ofInt number = (Nat.toDigits 10 number).map .char := by
  have digits : toString (number : Int) = Nat.repr number := rfl
  rw [ofInt, digits, ofString, Nat.toList_repr]

theorem ofInt_natCast_inj {left right : Nat} (equal : ofInt left = ofInt right) :
    left = right := by
  rw [ofInt_natCast, ofInt_natCast] at equal
  have sameDigits : Nat.toDigits 10 left = Nat.toDigits 10 right :=
    List.map_injective_iff.2 (fun _ _ => CodePoint.char.inj) equal
  have sameNumber := congrArg (fun digits => Nat.ofDigitChars 10 digits 0) sameDigits
  simpa only [Nat.ofDigitChars_ten_toDigits] using sameNumber

theorem ofNat_injective : Function.Injective ofNat :=
  fun _ _ equal => ofInt_natCast_inj equal

theorem notMem_ofInt_natCast {separator : Char} (notDigit : separator.isDigit = false)
    (number : Nat) : .char separator ∉ ofInt number := by
  rw [ofInt_natCast, List.mem_map]
  rintro ⟨digit, member, equal⟩
  have isDigit := Nat.isDigit_of_mem_toDigits (by decide) (by decide) member
  rw [CodePoint.char.inj equal, notDigit] at isDigit
  cases isDigit

end Text

end ImportAtlas
