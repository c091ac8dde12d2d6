import ImportAtlas.Proofs.PackageImports
import Mathlib.Data.List.TakeWhile

/-!
# References in configuration files are all found

A configuration file made of `require` and `import` statements is read from left to right. Reading
finds the specifier of every statement in turn, and nothing inside a specifier or in between, even
where a specifier holds the words, parentheses, blanks and line ends of a reference.

A reference begins with a word, and the first code point behind it that is not blank is a
parenthesis or a quote. So there is none where a word is followed by anything else.
-/

namespace ImportAtlas.References

open Text

/-! ## Statements -/

/-- A specifier in quotes, which may hold anything but quotes. -/
structure Quoted where
  quote : CodePoint
  quotes : isQuote quote = true
  specifier : Text
  given : specifier ≠ []
  unquoted : ∀ point ∈ specifier, isQuote point = false

def Quoted.text (quoted : Quoted) : Text :=
  quoted.quote :: quoted.specifier ++ [quoted.quote]

/-- A parenthesis or a quote, which opens what a word refers to. -/
def isOpening (point : CodePoint) : Bool := point = '(' || isQuote point

/-- What is imported from a file, such as an identifier or a list of them. -/
structure Clause where
  text : Text
  unopened : ∀ point ∈ text, isOpening point = false

/-- The forms of a statement around its specifier. -/
inductive Form where
  | require
  | importCall
  | importBare
  | importFrom (clause : Clause)

namespace Form

def before : Form → Text
  | .require => "require("
  | .importCall => "import("
  | .importBare => "import "
  | .importFrom clause => "import " ++ clause.text ++ " from "

def after : Form → Text
  | .require | .importCall => ")"
  | .importBare | .importFrom _ => ""

end Form

structure Statement where
  form : Form
  quoted : Quoted

def Statement.text (statement : Statement) : Text :=
  statement.form.before ++ statement.quoted.text ++ statement.form.after

/-- A file of statements, each on lines of its own. -/
def source (statements : List Statement) : Text :=
  join ";\n" (statements.map Statement.text)

variable {text behind rest specifier : Text} {point : CodePoint}

/-! ## Parts of a reference -/

/-- A specifier between quotes, and the text behind them. -/
structure Quotation (text specifier rest : Text) : Prop where
  given : specifier ≠ []
  unquoted : ∀ point ∈ specifier, isQuote point = false
  between : ∃ left right, isQuote left = true ∧ isQuote right = true ∧
    text = left :: (specifier ++ right :: rest)

theorem Quotation.suffix (quotation : Quotation text specifier rest) : rest <:+ text := by
  rcases quotation.between with ⟨left, right, -, -, rfl⟩
  exact ⟨left :: specifier ++ [right], by simp⟩

theorem quotation_of_quotedText? (found : quotedText? text = some (specifier, rest)) :
    Quotation text specifier rest := by
  cases text with
  | nil => cases found
  | cons left tail =>
      simp only [quotedText?] at found
      split at found
      · cases found
      · rename_i isLeft
        split at found
        · cases found
        · rename_i right others cut
          split at found
          · cases found
          · rename_i given
            cases found
            have isRight := List.head?_dropWhile_not (fun point => !isQuote point) tail
            rw [cut] at isRight
            constructor
            · exact given
            · intro point member
              simpa using List.mem_takeWhile_imp member
            · refine ⟨left, right, by simpa using isLeft, by simpa using isRight, ?_⟩
              rw [← cut, List.takeWhile_append_dropWhile]

theorem quotedText?_of_quotation (quotation : Quotation text specifier rest) :
    quotedText? text = some (specifier, rest) := by
  rcases quotation.between with ⟨left, right, isLeft, isRight, rfl⟩
  have kept : ∀ point ∈ specifier, (!isQuote point) = true := by
    intro point member
    rw [quotation.unquoted point member]
    rfl
  have inner : (specifier ++ right :: rest).takeWhile (fun point => !isQuote point) =
      specifier := by
    rw [List.takeWhile_append_of_pos kept]
    simp [isRight]
  have outer : (specifier ++ right :: rest).dropWhile (fun point => !isQuote point) =
      right :: rest := by
    rw [List.dropWhile_append_of_pos kept]
    simp [isRight]
  simp [quotedText?, isLeft, inner, outer, quotation.given]

theorem afterMark?_eq_some_iff {mark : CodePoint} :
    afterMark? mark text = some rest ↔ text.dropWhile isBlank = mark :: rest := by
  rw [afterMark?]
  split
  · rename_i nothing
    simp [nothing]
  · rename_i point others first
    rw [first]
    by_cases same : point = mark <;> simp [same]

theorem suffix_of_afterMark? {mark : CodePoint} (found : afterMark? mark text = some rest) :
    rest <:+ text := by
  have dropped : text.dropWhile isBlank <:+ text := List.dropWhile_suffix _
  rw [afterMark?_eq_some_iff.1 found] at dropped
  exact (List.suffix_cons mark rest).trans dropped

/-! ## The beginning of a reference -/

/-- The words that a reference can begin with. -/
def words : List Text := ["require", "import", "from"]

theorem exists_word_of_afterWord? {options : List Text} (among : options ⊆ words)
    (found : afterWord? options text = some behind) : ∃ word ∈ words, text = word ++ behind := by
  rcases List.exists_of_findSome?_eq_some found with ⟨word, isOption, begins⟩
  exact ⟨word, among isOption, (List.isPrefixOf?_eq_some_iff_append_eq.1 begins).symm⟩

/-- The text begins as a reference does, with the rest somewhere behind. -/
def Begins (text rest : Text) : Prop :=
  ∃ word ∈ words, ∃ behind opening tail, text = word ++ behind ∧
    behind.dropWhile isBlank = opening :: tail ∧ isOpening opening = true ∧ rest <:+ tail

theorem begins_of_call? (found : call? text = some (specifier, rest)) : Begins text rest := by
  simp only [call?, Option.bind_eq_bind, Option.bind_eq_some_iff] at found
  rcases found with ⟨behind, worded, inner, opened, ⟨quoted, last⟩, isQuoted, after, closed, same⟩
  cases same
  rcases exists_word_of_afterWord? (by simp [words]) worded with ⟨word, isWord, rfl⟩
  have inside : last <:+ inner :=
    (quotation_of_quotedText? isQuoted).suffix.trans (List.dropWhile_suffix _)
  exact ⟨word, isWord, behind, '(', inner, rfl, afterMark?_eq_some_iff.1 opened, rfl,
    (suffix_of_afterMark? closed).trans inside⟩

theorem begins_of_statement? (found : statement? text = some (specifier, rest)) :
    Begins text rest := by
  simp only [statement?, Option.bind_eq_bind, Option.bind_eq_some_iff] at found
  rcases found with ⟨behind, worded, found⟩
  rcases exists_word_of_afterWord? (by simp [words]) worded with ⟨word, isWord, rfl⟩
  split at found
  · cases found
  · split at found
    · rcases (quotation_of_quotedText? found).between with ⟨left, right, isLeft, -, between⟩
      refine ⟨word, isWord, _, left, _, rfl, between, by simp [isOpening, isLeft], ?_⟩
      exact ⟨specifier ++ [right], by simp⟩
    · cases found

theorem begins_of_reference? (found : reference? text = some (specifier, rest)) :
    Begins text rest := by
  rw [reference?] at found
  split at found
  · rename_i isCall
    cases found
    exact begins_of_call? isCall
  · exact begins_of_statement? found

/-! ## Where there is no reference -/

/-- No word begins with a code point that is in none of them. -/
theorem reference?_of_notMem (free : ∀ word ∈ words, point ∉ word) :
    reference? (point :: text) = none := by
  rw [Option.eq_none_iff_forall_ne_some]
  rintro ⟨specifier, rest⟩ found
  rcases begins_of_reference? found with ⟨word, isWord, behind, -, -, worded, -⟩
  cases word with
  | nil => exact absurd isWord (by decide)
  | cons first others =>
      rw [List.cons_append, List.cons.injEq] at worded
      apply free (first :: others) isWord
      rw [worded.1]
      exact List.mem_cons_self

/-- What is not blank first, up to a code point that is not blank. -/
theorem mem_or_eq_of_dropWhile_isBlank {front tail : Text} {next first : CodePoint}
    (notBlank : isBlank next = false)
    (dropped : (front ++ next :: rest).dropWhile isBlank = first :: tail) :
    first ∈ front ∨ first = next := by
  rw [List.dropWhile_append] at dropped
  split at dropped
  · rw [List.dropWhile_cons_of_neg (by simp [notBlank]), List.cons.injEq] at dropped
    exact .inr dropped.1.symm
  · rename_i given
    have isFirst : first ∈ front.dropWhile isBlank := by
      cases kept : front.dropWhile isBlank with
      | nil => simp [kept] at given
      | cons other others =>
          rw [kept, List.cons_append, List.cons.injEq] at dropped
          rw [dropped.1]
          exact List.mem_cons_self
    exact .inl ((List.dropWhile_suffix _).subset isFirst)

/-- Where nothing opens up to a blank and a code point behind it, no reference begins. -/
theorem reference?_of_unopened {front : Text} {next : CodePoint}
    (unopened : ∀ point ∈ front, isOpening point = false) (notOpening : isOpening next = false)
    (notBlank : isBlank next = false) :
    reference? (front ++ .char ' ' :: next :: rest) = none := by
  rw [Option.eq_none_iff_forall_ne_some]
  rintro ⟨specifier, last⟩ found
  rcases begins_of_reference? found with
    ⟨word, isWord, behind, opening, tail, worded, dropped, isOpen, -⟩
  have spaceless : ∀ word ∈ words, .char ' ' ∉ word := by decide
  -- A word holds no space, so all of it lies in front of the space.
  have inFront : word <+: front := by
    apply prefix_of_prefix_append_cons (spaceless word isWord)
    rw [worded]
    exact List.prefix_append word behind
  rcases inFront with ⟨between, rfl⟩
  rw [List.append_assoc, List.append_cancel_left_eq] at worded
  rw [← worded, List.append_cons] at dropped
  have closed : isOpening opening = false := by
    cases mem_or_eq_of_dropWhile_isBlank notBlank dropped with
    | inl member =>
        cases List.mem_append.1 member with
        | inl before => exact unopened opening (List.mem_append_right word before)
        | inr space =>
            rw [List.mem_singleton.1 space]
            decide
    | inr isNext =>
        rw [isNext]
        exact notOpening
  rw [closed] at isOpen
  cases isOpen

/-! ## Reading on -/

theorem specifiers_of_none (unread : reference? (point :: text) = none) :
    specifiers (point :: text) = specifiers text := by
  rw [specifiers, specifiersFrom, unread]
  rfl

theorem specifiersFrom_length (front rest : Text) :
    specifiersFrom front.length (front ++ rest) = specifiers rest := by
  induction front with
  | nil => rfl
  | cons point front ih =>
      rw [List.cons_append, List.length_cons, specifiersFrom]
      exact ih

/-- Reading goes on behind a reference. -/
theorem specifiers_of_some (found : reference? text = some (specifier, rest)) :
    specifiers text = specifier :: specifiers rest := by
  rcases begins_of_reference? found with
    ⟨word, isWord, behind, opening, tail, rfl, dropped, -, inTail⟩
  have inBehind : rest <:+ behind := by
    have inDropped : tail <:+ behind.dropWhile isBlank := by
      rw [dropped]
      exact List.suffix_cons opening tail
    exact inTail.trans (inDropped.trans (List.dropWhile_suffix _))
  rcases inBehind with ⟨between, rfl⟩
  cases word with
  | nil => exact absurd isWord (by decide)
  | cons first others =>
      rw [← List.append_assoc, List.cons_append, List.cons_append] at found ⊢
      rw [specifiers, specifiersFrom, found]
      simp only [List.length_append, Nat.add_sub_cancel]
      rw [← List.length_append, specifiersFrom_length]

/-- Nothing is found up to a code point behind a space if nothing opens there. -/
theorem specifiers_of_unopened {front : Text} {next : CodePoint}
    (unopened : ∀ point ∈ front, isOpening point = false) (notOpening : isOpening next = false)
    (notBlank : isBlank next = false) :
    specifiers (front ++ .char ' ' :: next :: rest) = specifiers (next :: rest) := by
  induction front with
  | nil => exact specifiers_of_none (reference?_of_notMem (by decide))
  | cons point front ih =>
      have unread := @reference?_of_unopened rest _ _ unopened notOpening notBlank
      rw [List.cons_append] at unread ⊢
      rw [specifiers_of_none unread]
      exact ih fun other member => unopened other (List.mem_cons_of_mem point member)

/-! ## Reading statements -/

theorem Quoted.quotation (quoted : Quoted) (rest : Text) :
    Quotation (quoted.text ++ rest) quoted.specifier rest where
  given := quoted.given
  unquoted := quoted.unquoted
  between := ⟨quoted.quote, quoted.quote, quoted.quotes, quoted.quotes, by simp [Quoted.text]⟩

/-- A quote is not blank, so nothing of what is quoted is dropped with blanks. -/
theorem Quoted.dropWhile_isBlank (quoted : Quoted) (rest : Text) :
    (quoted.text ++ rest).dropWhile isBlank = quoted.text ++ rest := by
  have notBlank : isBlank quoted.quote = false := by
    have quotes := quoted.quotes
    simp only [isQuote, Bool.or_eq_true, decide_eq_true_eq] at quotes
    rcases quotes with isSingle | isDouble
    · rw [isSingle]
      decide
    · rw [isDouble]
      decide
  rw [Quoted.text, List.cons_append, List.cons_append,
    List.dropWhile_cons_of_neg (by simp [notBlank])]

theorem reference?_of_parenthesis {quoted : Quoted}
    (worded : afterWord? ["require", "import"] text =
      some (.char '(' :: (quoted.text ++ .char ')' :: rest))) :
    reference? text = some (quoted.specifier, rest) := by
  have opens : afterMark? '(' (.char '(' :: (quoted.text ++ .char ')' :: rest)) =
      some (quoted.text ++ .char ')' :: rest) := afterMark?_eq_some_iff.2 rfl
  have closes : afterMark? ')' (.char ')' :: rest) = some rest := afterMark?_eq_some_iff.2 rfl
  have isCall : call? text = some (quoted.specifier, rest) := by
    simp only [call?, worded, opens, quoted.dropWhile_isBlank,
      quotedText?_of_quotation (quoted.quotation _), closes, Option.bind_eq_bind, Option.bind_some]
    rfl
  rw [reference?, isCall]

theorem call?_of_quote (quoted : Quoted) (rest : Text)
    (worded : afterWord? ["require", "import"] text = some (.char ' ' :: (quoted.text ++ rest))) :
    call? text = none := by
  have unopened : afterMark? '(' (.char ' ' :: (quoted.text ++ rest)) = none := by
    rw [Option.eq_none_iff_forall_ne_some]
    intro inner opens
    rw [afterMark?_eq_some_iff, List.dropWhile_cons_of_pos (by decide), quoted.dropWhile_isBlank,
      Quoted.text, List.cons_append, List.cons_append, List.cons.injEq] at opens
    have quotes := quoted.quotes
    rw [opens.1] at quotes
    exact absurd quotes (by decide)
  simp [call?, worded, unopened]

theorem reference?_of_quote {quoted : Quoted} (noCall : call? text = none)
    (worded : afterWord? ["from", "import"] text = some (.char ' ' :: (quoted.text ++ rest))) :
    reference? text = some (quoted.specifier, rest) := by
  have space : isBlank (.char ' ') = true := by decide
  rw [reference?, noCall]
  simp only [statement?, worded, Option.bind_eq_bind, Option.bind_some, space, if_true,
    List.dropWhile_cons_of_pos, quoted.dropWhile_isBlank]
  exact quotedText?_of_quotation (quoted.quotation rest)

theorem reference?_from (quoted : Quoted) (rest : Text) :
    reference? ("from " ++ quoted.text ++ rest) = some (quoted.specifier, rest) := by
  apply reference?_of_quote
  · simp [call?, afterWord?, Text.ofString, List.findSome?, List.isPrefixOf?]
  · simp [afterWord?, Text.ofString, List.findSome?, List.isPrefixOf?]

/-- What is imported is passed over up to the specifier. -/
theorem specifiers_importFrom (clause : Clause) (rest : Text) :
    specifiers ("import " ++ clause.text ++ " from " ++ rest) = specifiers ("from " ++ rest) := by
  have unopened : ∀ point ∈ "import " ++ clause.text, isOpening point = false := by
    intro point member
    cases List.mem_append.1 member with
    | inl inWord =>
        have wordUnopened : ∀ point ∈ ofString "import ", isOpening point = false := by decide
        exact wordUnopened point inWord
    | inr inClause => exact clause.unopened point inClause
  have passed := @specifiers_of_unopened ("rom " ++ rest) _ 'f' unopened (by decide) (by decide)
  simpa [Text.ofString] using passed

/-- Reading finds the specifier of a statement and goes on behind the statement. -/
theorem specifiers_statement (statement : Statement) (rest : Text) :
    specifiers (statement.text ++ rest) = statement.quoted.specifier :: specifiers rest := by
  rcases statement with ⟨form, quoted⟩
  rw [Statement.text]
  cases form with
  | require =>
      apply specifiers_of_some
      apply reference?_of_parenthesis
      simp [Form.before, Form.after, afterWord?, Text.ofString, List.findSome?, List.isPrefixOf?]
  | importCall =>
      apply specifiers_of_some
      apply reference?_of_parenthesis
      simp [Form.before, Form.after, afterWord?, Text.ofString, List.findSome?, List.isPrefixOf?]
  | importBare =>
      apply specifiers_of_some
      apply reference?_of_quote
      · apply call?_of_quote quoted rest
        simp [Form.before, Form.after, afterWord?, Text.ofString, List.findSome?, List.isPrefixOf?]
      · simp [Form.before, Form.after, afterWord?, Text.ofString, List.findSome?, List.isPrefixOf?]
  | importFrom clause =>
      have passed := specifiers_importFrom clause (quoted.text ++ rest)
      have found := specifiers_of_some (reference?_from quoted rest)
      simp only [List.append_assoc] at passed found
      simpa [Form.before, Form.after, Text.ofString] using passed.trans found

theorem specifiers_separator (rest : Text) : specifiers (";\n" ++ rest) = specifiers rest := by
  change specifiers (.char ';' :: .char '\n' :: rest) = specifiers rest
  rw [specifiers_of_none (reference?_of_notMem (by decide)),
    specifiers_of_none (reference?_of_notMem (by decide))]

theorem specifiers_source (statements : List Statement) :
    specifiers (source statements) =
      statements.map fun statement => statement.quoted.specifier := by
  induction statements with
  | nil => rfl
  | cons statement others ih =>
      cases others with
      | nil =>
          have found := specifiers_statement statement []
          rw [List.append_nil] at found
          exact found
      | cons next others =>
          rw [source, List.map_cons, join_cons _ _ (by simp), List.append_assoc,
            specifiers_statement, specifiers_separator, ← source, ih]
          rfl

/-- The packages of a file are those of its statements, each once, unless their names are paths. -/
theorem packages_of_source (statements : List Statement) :
    (packages (source statements)).Nodup ∧
    ∀ name, name ∈ packages (source statements) ↔
      ∃ statement ∈ statements,
        Specifier.packageName? statement.quoted.specifier = some name ∧
          Specifier.isPathAlias name = false := by
  constructor
  · exact (distinct_eraseDups _).nodup
  · intro name
    rw [packages, List.mem_eraseDups, specifiers_source, List.mem_filterMap]
    simp [package?_eq_some_iff]

/-- A statement inside a specifier is not read. -/
example :
    packages (source
      [⟨.importFrom ⟨"x", by decide⟩,
        ⟨'"', by decide, "knex/;\nimport(zod)", by decide, by decide⟩⟩,
       ⟨.require, ⟨'\'', by decide, "@/a", by decide, by decide⟩⟩]) = ["knex"] := by
  decide +kernel

end ImportAtlas.References
