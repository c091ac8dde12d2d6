import ImportAtlas.Package.Braces
import ImportAtlas.Proofs.Text
import Mathlib.Algebra.BigOperators.Group.List.Basic
import Mathlib.Data.List.Forall2

/-!
# Brace expansion is a product

Groups are replaced one by one, and the text is read anew after every round. Options hold no
braces, so a round uses up one opening brace and forms no new group: expansion ends, and what it
ends with has no group left. For a pattern whose groups stand side by side this gives all ways to
take one option of each, in the order of a dictionary over the positions of the options.

A pattern that is given is expanded unless it takes too many rounds. How many it takes depends on
its braces alone, not on the options that are taken.
-/

namespace ImportAtlas.Braces

open Text

/-! ## Groups -/

def isBrace (point : CodePoint) : Bool := point = '\x7b' || point = '\x7d'

def Braceless (text : Text) : Prop := ∀ point ∈ text, isBrace point = false

instance (text : Text) : Decidable (Braceless text) :=
  inferInstanceAs (Decidable (∀ point ∈ text, isBrace point = false))

/-- An opening brace, a closing brace, and no brace in between. -/
structure Group.StandsIn (group : Group) (text : Text) : Prop where
  whole : text = group.head ++ .char '\x7b' :: (group.body ++ .char '\x7d' :: group.tail)
  braceless : Braceless group.body

def Ungrouped (text : Text) : Prop := ∀ group : Group, ¬ group.StandsIn text

/-- A group of options and the text behind it. -/
structure Choice where
  options : List Text
  given : options ≠ []
  plain : ∀ option ∈ options, Braceless option ∧ .char ',' ∉ option
  literal : Text
  literalPlain : Braceless literal

def Choice.text (choice : Choice) : Text :=
  .char '\x7b' :: (join [.char ','] choice.options ++ .char '\x7d' :: choice.literal)

/-- The option at a position, and the text behind the group. -/
def Choice.fill (choice : Choice) (index : Nat) : Text :=
  choice.options.getD index [] ++ choice.literal

/-- Groups side by side behind some text. -/
structure Template where
  lead : Text
  leadPlain : Braceless lead
  choices : List Choice

namespace Template

def text (template : Template) : Text :=
  template.lead ++ template.choices.flatMap Choice.text

/-- What a template becomes if the options at the given positions are taken. -/
def fill (template : Template) (pick : List Nat) : Text :=
  template.lead ++ (List.zipWith Choice.fill template.choices pick).flatten

/-- One position in each group. -/
def Allows (template : Template) (pick : List Nat) : Prop :=
  List.Forall₂ (fun index (choice : Choice) => index < choice.options.length) pick
    template.choices

/-- The texts are all fillings of a template, in the order of a dictionary. -/
structure Product (template : Template) (texts : List Text) : Prop where
  filled : ∃ picks : List (List Nat), texts = picks.map template.fill ∧
    picks.Pairwise (List.Lex (· < ·)) ∧ ∀ pick, pick ∈ picks ↔ template.Allows pick
  count : texts.length = (template.choices.map fun choice => choice.options.length).prod

end Template

/-- All positions in some groups, those in the first group varying slowest. -/
def picks : List Choice → List (List Nat)
  | [] => [[]]
  | choice :: choices =>
      (List.range choice.options.length).flatMap fun index => (picks choices).map (index :: ·)

variable {pattern text rest before piece option : Text} {point : CodePoint} {group : Group}
  {inside : Option (Text × Text)}

/-! ## Groups in a text -/

theorem isBrace_eq_false_iff :
    isBrace point = false ↔ point ≠ .char '\x7b' ∧ point ≠ .char '\x7d' := by
  simp [isBrace]

theorem braceless_nil : Braceless [] := List.forall_mem_nil _

theorem Braceless.append (left : Braceless text) (right : Braceless rest) :
    Braceless (text ++ rest) := by
  intro point member
  cases List.mem_append.1 member with
  | inl inLeft => exact left point inLeft
  | inr inRight => exact right point inRight

theorem Braceless.cons (notBrace : isBrace point = false) (braceless : Braceless text) :
    Braceless (point :: text) :=
  List.forall_mem_cons.2 ⟨notBrace, braceless⟩

theorem Braceless.reverse (braceless : Braceless text) : Braceless text.reverse :=
  fun point member => braceless point (List.mem_reverse.1 member)

theorem Braceless.of_mem_segments {separator : CodePoint} (braceless : Braceless text)
    (isPiece : piece ∈ segments separator text) : Braceless piece :=
  fun point member => braceless point (mem_of_mem_segments isPiece member)

theorem Braceless.count_eq_zero (braceless : Braceless text) :
    text.count (.char '\x7b') = 0 := by
  rw [List.count_eq_zero]
  intro member
  exact absurd (braceless _ member) (by decide)

theorem ungrouped_of_notMem (unclosed : .char '\x7d' ∉ text) : Ungrouped text := by
  intro group stands
  apply unclosed
  rw [stands.whole]
  simp

/-- A group stands at the beginning of a text or further on. -/
theorem Group.StandsIn.cons_cases (stands : group.StandsIn (point :: text)) :
    (point = .char '\x7b' ∧ text = group.body ++ .char '\x7d' :: group.tail) ∨
      ∃ other : Group, other.StandsIn text := by
  rcases group with ⟨head, body, tail⟩
  rcases stands with ⟨whole, braceless⟩
  cases head with
  | nil => exact .inl (List.cons.inj whole)
  | cons first others => exact .inr ⟨⟨others, body, tail⟩, (List.cons.inj whole).2, braceless⟩

theorem Ungrouped.cons (ungrouped : Ungrouped text) (notOpening : point ≠ .char '\x7b') :
    Ungrouped (point :: text) := by
  intro group stands
  cases stands.cons_cases with
  | inl opens => exact notOpening opens.1
  | inr further =>
      rcases further with ⟨other, stands⟩
      exact ungrouped other stands

theorem Ungrouped.append_left (ungrouped : Ungrouped text) (braceless : Braceless piece) :
    Ungrouped (piece ++ text) := by
  induction piece with
  | nil => exact ungrouped
  | cons point piece ih =>
      rw [Braceless, List.forall_mem_cons] at braceless
      exact (ih braceless.2).cons (isBrace_eq_false_iff.1 braceless.1).1

theorem Braceless.dropWhile (braceless : Braceless piece) (brace : isBrace point = true) :
    (piece ++ point :: rest).dropWhile (fun point => !isBrace point) = point :: rest := by
  have passed : ∀ point ∈ piece, (!isBrace point) = true := by
    intro point member
    rw [braceless point member]
    rfl
  rw [List.dropWhile_append_of_pos passed]
  simp [brace]

/-- A brace that is followed by an opening brace opens no group. -/
theorem Ungrouped.opening (ungrouped : Ungrouped (.char '\x7b' :: text))
    (braceless : Braceless piece) :
    Ungrouped (.char '\x7b' :: (piece ++ .char '\x7b' :: text)) := by
  intro group stands
  cases stands.cons_cases with
  | inl opens =>
      have firstBrace := congrArg (List.dropWhile fun point => !isBrace point) opens.2
      rw [braceless.dropWhile rfl, stands.braceless.dropWhile rfl] at firstBrace
      simp at firstBrace
  | inr further =>
      rcases further with ⟨other, stands⟩
      exact ungrouped.append_left braceless other stands

/-! ## Finding a group -/

/-- If a group has been opened, no brace has been read since. -/
def Fits (before : Text) : Option (Text × Text) → Prop
  | none => True
  | some (head, body) => before = body ++ .char '\x7b' :: head ∧ Braceless body

theorem Fits.read (fits : Fits before inside) (notBrace : isBrace point = false) :
    Fits (point :: before) (inside.map fun (head, body) => (head, point :: body)) := by
  cases inside with
  | none => trivial
  | some opened => exact ⟨by rw [fits.1]; rfl, fits.2.cons notBrace⟩

/-- What is found is a group of the text that has been read and the text that is left. -/
theorem standsIn_of_scan (fits : Fits before inside)
    (found : scan before inside text = some group) : group.StandsIn (before.reverse ++ text) := by
  fun_induction scan before inside text with
  | case1 => cases found
  | case2 before inside rest ih =>
      have opened : Fits (.char '\x7b' :: before) (some (before, [])) := ⟨rfl, braceless_nil⟩
      simpa using ih opened found
  | case3 before rest head body notOpening =>
      cases found
      rcases fits with ⟨rfl, braceless⟩
      exact ⟨by simp, braceless.reverse⟩
  | case4 before rest notOpening ih => simpa using ih trivial found
  | case5 before inside point rest notOpening notClosing ih =>
      simpa using ih (fits.read (isBrace_eq_false_iff.2 ⟨notOpening, notClosing⟩)) found

/-- The part of what has been read that a closing brace would make a group. -/
def pending : Option (Text × Text) → Text
  | none => []
  | some (_, body) => .char '\x7b' :: body.reverse

/-- If nothing is found, there is no group in what is pending and the text that is left. -/
theorem ungrouped_of_scan (fits : Fits before inside) (missed : scan before inside text = none) :
    Ungrouped (pending inside ++ text) := by
  fun_induction scan before inside text with
  | case1 before inside =>
      apply ungrouped_of_notMem
      cases inside with
      | none => simp [pending]
      | some opened =>
          intro closed
          have inBody : .char '\x7d' ∈ opened.2 := by simpa [pending] using closed
          exact absurd (fits.2 _ inBody) (by decide)
  | case2 before inside rest ih =>
      have opened : Fits (.char '\x7b' :: before) (some (before, [])) := ⟨rfl, braceless_nil⟩
      have ungrouped := ih opened missed
      -- The new brace stands between a pending one and whatever could close it.
      cases inside with
      | none => exact ungrouped
      | some opened => exact ungrouped.opening fits.2.reverse
  | case3 before rest head body notOpening => cases missed
  | case4 before rest notOpening ih => exact (ih trivial missed).cons notOpening
  | case5 before inside point rest notOpening notClosing ih =>
      have notBrace := isBrace_eq_false_iff.2 ⟨notOpening, notClosing⟩
      have ungrouped := ih (fits.read notBrace) missed
      cases inside with
      | none => exact ungrouped.cons notOpening
      | some opened => simpa [pending] using ungrouped

theorem standsIn_of_group? (found : group? pattern = some group) : group.StandsIn pattern := by
  have fits : Fits [] none := trivial
  simpa using standsIn_of_scan fits found

theorem ungrouped_of_group? (missed : group? pattern = none) : Ungrouped pattern := by
  have fits : Fits [] none := trivial
  simpa [pending] using ungrouped_of_scan fits missed

theorem scan_opening :
    scan before inside (.char '\x7b' :: text) =
      scan (.char '\x7b' :: before) (some (before, [])) text := rfl

theorem scan_closing (head body : Text) :
    scan before (some (head, body)) (.char '\x7d' :: text) =
      some ⟨head.reverse, body.reverse, text⟩ := rfl

/-- Code points that are no braces are passed over, and belong to the group that is open. -/
theorem scan_append (braceless : Braceless piece) (text : Text) :
    scan before inside (piece ++ text) =
      scan (piece.reverse ++ before)
        (inside.map fun (head, body) => (head, piece.reverse ++ body)) text := by
  induction piece generalizing before inside with
  | nil => cases inside <;> rfl
  | cons point piece ih =>
      rw [Braceless, List.forall_mem_cons] at braceless
      have notBrace := isBrace_eq_false_iff.1 braceless.1
      rw [List.cons_append, scan.eq_def]
      simp only [notBrace.1, notBrace.2, if_false, ih braceless.2]
      cases inside <;> simp

/-- The first group is found if it holds no braces and none come before it. -/
theorem group?_append (headless : Braceless text) (braceless : Braceless piece) (rest : Text) :
    group? (text ++ .char '\x7b' :: (piece ++ .char '\x7d' :: rest)) =
      some ⟨text, piece, rest⟩ := by
  rw [group?, scan_append headless, scan_opening, scan_append braceless, Option.map_some,
    scan_closing]
  simp

/-! ## Rounds -/

/-- A round uses up one opening brace. -/
theorem Group.StandsIn.count_option (stands : group.StandsIn pattern)
    (braceless : Braceless option) :
    (group.head ++ option ++ group.tail).count (.char '\x7b') + 1 =
      pattern.count (.char '\x7b') := by
  rw [stands.whole]
  simp [List.count_append, braceless.count_eq_zero, stands.braceless.count_eq_zero]
  omega

/-- Patterns are built up from those without groups, because every round ends with fewer opening
braces. -/
theorem rounds_induct (property : Text → Prop)
    (ends : ∀ pattern, group? pattern = none → property pattern)
    (goesOn : ∀ pattern group, group? pattern = some group →
      (∀ option, Braceless option → property (group.head ++ option ++ group.tail)) →
      property pattern)
    (pattern : Text) : property pattern := by
  induction fewer : pattern.count (.char '\x7b') using Nat.strongRecOn generalizing pattern with
  | ind count ih =>
      cases found : group? pattern with
      | none => exact ends pattern found
      | some group =>
          apply goesOn pattern group found
          intro option braceless
          have used := (standsIn_of_group? found).count_option braceless
          exact ih _ (by omega) _ rfl

theorem expand_of_none (missed : group? pattern = none) : expand pattern = [pattern] := by
  rw [expand]
  cases pattern.count (.char '\x7b') with
  | zero => rfl
  | succ rounds => rw [expandRounds, missed]

/-- Expansion goes on with each option in turn. -/
theorem expand_of_some (found : group? pattern = some group) :
    expand pattern = (segments ',' group.body).flatMap fun option =>
      expand (group.head ++ option ++ group.tail) := by
  have stands := standsIn_of_group? found
  have used := stands.count_option braceless_nil
  rw [expand, ← used, expandRounds, found]
  apply List.flatMap_congr
  intro option isOption
  have same := stands.count_option (stands.braceless.of_mem_segments isOption)
  rw [expand, Nat.add_right_cancel (used.trans same.symm)]

theorem expand_ne_nil (pattern : Text) : expand pattern ≠ [] := by
  induction pattern using rounds_induct with
  | ends pattern missed => simp [expand_of_none missed]
  | goesOn pattern group found ih =>
      have stands := standsIn_of_group? found
      rcases List.exists_mem_of_ne_nil _ (segments_ne_nil ',' group.body) with ⟨option, isOption⟩
      rw [expand_of_some found, Ne, List.flatMap_eq_nil_iff]
      intro empty
      exact ih option (stands.braceless.of_mem_segments isOption) (empty option isOption)

/-- Expansion leaves no group. -/
theorem ungrouped_of_mem_expand (expanded : text ∈ expand pattern) : Ungrouped text := by
  induction pattern using rounds_induct with
  | ends pattern missed =>
      rw [expand_of_none missed, List.mem_singleton] at expanded
      rw [expanded]
      exact ungrouped_of_group? missed
  | goesOn pattern group found ih =>
      have stands := standsIn_of_group? found
      rw [expand_of_some found, List.mem_flatMap] at expanded
      rcases expanded with ⟨option, isOption, expanded⟩
      exact ih option (stands.braceless.of_mem_segments isOption) expanded

/-! ## The number of rounds -/

/-- Rounds until no group is left. -/
def rounds (pattern : Text) : Nat := countRounds (pattern.count (.char '\x7b')) pattern

theorem rounds_of_none (missed : group? pattern = none) : rounds pattern = 0 := by
  rw [rounds]
  cases pattern.count (.char '\x7b') with
  | zero => rfl
  | succ rounds => rw [countRounds, missed]

theorem rounds_of_some (found : group? pattern = some group) :
    rounds pattern = rounds (group.head ++ group.tail) + 1 := by
  have used := (standsIn_of_group? found).count_option braceless_nil
  rw [List.append_nil] at used
  rw [rounds, ← used, countRounds, found, rounds]

theorem rounds_le_count (pattern : Text) : rounds pattern ≤ pattern.count (.char '\x7b') := by
  induction pattern using rounds_induct with
  | ends pattern missed => simp [rounds_of_none missed]
  | goesOn pattern group found ih =>
      have used := (standsIn_of_group? found).count_option braceless_nil
      have fewer := ih [] braceless_nil
      rw [List.append_nil] at used fewer
      rw [rounds_of_some found]
      omega

/-- The braces of a text. -/
def skeleton (text : Text) : Text := text.filter isBrace

theorem Braceless.skeleton_eq (braceless : Braceless text) : skeleton text = [] := by
  rw [skeleton, List.filter_eq_nil_iff]
  intro point member
  simp [braceless point member]

def Group.skeleton (group : Group) : Group :=
  ⟨Braces.skeleton group.head, Braces.skeleton group.body, Braces.skeleton group.tail⟩

theorem skeleton_reverse (text : Text) : skeleton text.reverse = (skeleton text).reverse :=
  List.filter_reverse

theorem scan_skeleton (before : Text) (inside : Option (Text × Text)) (text : Text) :
    scan (skeleton before) (inside.map fun (head, body) => (skeleton head, skeleton body))
        (skeleton text) =
      (scan before inside text).map Group.skeleton := by
  fun_induction scan before inside text with
  | case1 => rfl
  | case2 before inside rest ih => exact ih
  | case3 before rest head body notOpening =>
      have closes : skeleton (.char '\x7d' :: rest) = .char '\x7d' :: skeleton rest := rfl
      rw [closes, Option.map_some, scan_closing, Option.map_some, Group.skeleton, skeleton_reverse,
        skeleton_reverse]
  | case4 before rest notOpening ih => exact ih
  | case5 before inside point rest notOpening notClosing ih =>
      have notBrace := isBrace_eq_false_iff.2 ⟨notOpening, notClosing⟩
      have dropped : ∀ text, skeleton (point :: text) = skeleton text := by
        intro text
        simp [skeleton, notBrace]
      rw [← ih, dropped, dropped]
      cases inside <;> simp [dropped]

theorem group?_skeleton (pattern : Text) :
    group? (skeleton pattern) = (group? pattern).map Group.skeleton :=
  scan_skeleton [] none pattern

/-- How many rounds a pattern takes depends on its braces alone. -/
theorem rounds_skeleton (pattern : Text) : rounds (skeleton pattern) = rounds pattern := by
  induction pattern using rounds_induct with
  | ends pattern missed =>
      rw [rounds_of_none missed, rounds_of_none]
      rw [group?_skeleton, missed, Option.map_none]
  | goesOn pattern group found ih =>
      have alsoFound : group? (skeleton pattern) = some group.skeleton := by
        rw [group?_skeleton, found, Option.map_some]
      have same := ih [] braceless_nil
      rw [List.append_nil] at same
      rw [rounds_of_some found, rounds_of_some alsoFound, ← same]
      simp [Group.skeleton, skeleton]

/-- Every option takes one round less than the pattern. -/
theorem rounds_option (found : group? pattern = some group) (braceless : Braceless option) :
    rounds (group.head ++ option ++ group.tail) + 1 = rounds pattern := by
  have same : skeleton (group.head ++ option ++ group.tail) =
      skeleton (group.head ++ group.tail) := by
    have noBraces := braceless.skeleton_eq
    simp only [skeleton, List.filter_append] at noBraces ⊢
    rw [noBraces, List.append_nil]
  rw [rounds_of_some found, ← rounds_skeleton, same, rounds_skeleton]

/-! ## Groups side by side -/

variable {choices : List Choice}

theorem mem_picks_iff {pick : List Nat} :
    pick ∈ picks choices ↔
      List.Forall₂ (fun index (choice : Choice) => index < choice.options.length) pick choices := by
  induction choices generalizing pick with
  | nil => simp [picks]
  | cons choice choices ih =>
      cases pick with
      | nil => simp [picks]
      | cons index pick => simp [picks, ih]

theorem pairwise_picks (choices : List Choice) : (picks choices).Pairwise (List.Lex (· < ·)) := by
  induction choices with
  | nil => simp [picks]
  | cons choice choices ih =>
      rw [picks, List.pairwise_flatMap]
      constructor
      · intro index isIndex
        rw [List.pairwise_map]
        exact ih.imp fun earlier => .cons earlier
      · apply List.pairwise_lt_range.imp
        intro left right earlier leftPick isLeft rightPick isRight
        rcases List.mem_map.1 isLeft with ⟨leftRest, -, rfl⟩
        rcases List.mem_map.1 isRight with ⟨rightRest, -, rfl⟩
        exact .rel earlier

theorem length_picks (choices : List Choice) :
    (picks choices).length = (choices.map fun choice => choice.options.length).prod := by
  induction choices with
  | nil => rfl
  | cons choice choices ih => simp [picks, ih]

theorem Choice.braceless_body (choice : Choice) :
    Braceless (join [.char ','] choice.options) := by
  intro point member
  rcases mem_or_exists_of_mem_join member with isComma | ⟨option, isOption, inOption⟩
  · rw [List.mem_singleton.1 isComma]
    rfl
  · exact (choice.plain option isOption).1 point inOption

/-- Options are gone through by their positions. -/
theorem flatMap_options {α : Type} (options : List Text) (image : Text → List α) :
    options.flatMap image =
      (List.range options.length).flatMap fun index => image (options.getD index []) := by
  have byPosition : (List.range options.length).map (fun index => options.getD index []) =
      options := by
    apply List.ext_getElem
    · simp
    · intro index _ inOptions
      simp [inOptions]
  conv_lhs => rw [← byPosition, List.flatMap_map]

theorem group?_choices (braceless : Braceless text) (choice : Choice) (choices : List Choice) :
    group? (text ++ (choice :: choices).flatMap Choice.text) =
      some ⟨text, join [.char ','] choice.options,
        choice.literal ++ choices.flatMap Choice.text⟩ := by
  have found := group?_append braceless choice.braceless_body
    (choice.literal ++ choices.flatMap Choice.text)
  simpa [Choice.text] using found

theorem group?_of_braceless (braceless : Braceless text) : group? text = none := by
  have passed := @scan_append [] _ none braceless []
  rw [List.append_nil] at passed
  exact passed

theorem rounds_choices (braceless : Braceless text) (choices : List Choice) :
    rounds (text ++ choices.flatMap Choice.text) = choices.length := by
  induction choices generalizing text with
  | nil =>
      rw [List.flatMap_nil, List.append_nil]
      exact rounds_of_none (group?_of_braceless braceless)
  | cons choice choices ih =>
      rw [rounds_of_some (group?_choices braceless choice choices), ← List.append_assoc,
        ih (braceless.append choice.literalPlain), List.length_cons]

theorem expand_choices (braceless : Braceless text) (choices : List Choice) :
    expand (text ++ choices.flatMap Choice.text) =
      (picks choices).map fun pick =>
        text ++ (List.zipWith Choice.fill choices pick).flatten := by
  induction choices generalizing text with
  | nil =>
      rw [List.flatMap_nil, List.append_nil, expand_of_none (group?_of_braceless braceless)]
      simp [picks]
  | cons choice choices ih =>
      have commaless := fun option isOption => (choice.plain option isOption).2
      rw [expand_of_some (group?_choices braceless choice choices),
        segments_join choice.given commaless]
      calc
        _ = choice.options.flatMap fun option => (picks choices).map fun pick =>
              text ++ option ++ choice.literal ++
                (List.zipWith Choice.fill choices pick).flatten := by
          -- The option and the literal join the text in front, which still holds no braces.
          apply List.flatMap_congr
          intro option isOption
          have behind := (braceless.append (choice.plain option isOption).1).append
            choice.literalPlain
          rw [← List.append_assoc, ih behind]
        _ = _ := by
          rw [flatMap_options, picks, List.map_flatMap]
          simp only [List.map_map, Function.comp_def, List.zipWith_cons_cons, List.flatten_cons,
            Choice.fill, List.append_assoc]

/-! ## Expanding what is given -/

section Given

variable {mostRounds : Nat}

theorem expandGiven_eq_ok (few : rounds pattern ≤ mostRounds) :
    expandGiven mostRounds pattern = .ok (expand pattern) := by
  rw [expandGiven, ← rounds, if_neg (Nat.not_lt.2 few)]

theorem expandGiven_eq_error (many : mostRounds < rounds pattern) :
    expandGiven mostRounds pattern = .error .tooDeep := by
  rw [expandGiven, ← rounds, if_pos many]

end Given

/-- A template takes a round for each group, and expands to its fillings. -/
theorem Template.product_expand (template : Template) :
    rounds template.text = template.choices.length ∧ template.Product (expand template.text) := by
  have filled : expand template.text = (picks template.choices).map template.fill :=
    expand_choices template.leadPlain template.choices
  refine ⟨rounds_choices template.leadPlain template.choices, ?_, ?_⟩
  · exact ⟨picks template.choices, filled, pairwise_picks template.choices,
      fun pick => mem_picks_iff⟩
  · rw [filled, List.length_map, length_picks]

/-- However many rounds there may be, a pattern that does not take more is expanded, whatever its
braces are: to at least one text, and to none with a group. A template is expanded to all its
fillings in order. Each option takes one round less than the pattern, and there are no more rounds
than opening braces. -/
theorem expansion_is_product (mostRounds : Nat) :
    (∀ pattern,
      (rounds pattern ≤ mostRounds → ∃ texts, expandGiven mostRounds pattern = .ok texts ∧
        texts ≠ [] ∧ ∀ text ∈ texts, Ungrouped text) ∧
      (mostRounds < rounds pattern → expandGiven mostRounds pattern = .error .tooDeep) ∧
      (∀ group, group? pattern = some group → ∀ option ∈ segments ',' group.body,
        rounds (group.head ++ option ++ group.tail) + 1 = rounds pattern) ∧
      rounds pattern ≤ pattern.count (.char '\x7b')) ∧
    ∀ template : Template, rounds template.text = template.choices.length ∧
      (template.choices.length ≤ mostRounds →
        ∃ texts, expandGiven mostRounds template.text = .ok texts ∧ template.Product texts) := by
  constructor
  · intro pattern
    refine ⟨?_, expandGiven_eq_error, ?_, rounds_le_count pattern⟩
    · intro few
      exact ⟨expand pattern, expandGiven_eq_ok few, expand_ne_nil pattern,
        fun text expanded => ungrouped_of_mem_expand expanded⟩
    · intro group found option isOption
      have stands := standsIn_of_group? found
      exact rounds_option found (stands.braceless.of_mem_segments isOption)
  · intro template
    rcases template.product_expand with ⟨perGroup, product⟩
    refine ⟨perGroup, ?_⟩
    intro few
    rw [← perGroup] at few
    exact ⟨_, expandGiven_eq_ok few, product⟩

/-- Two groups, of which the first has an empty option. -/
def menu : Template where
  lead := ".rc"
  leadPlain := by decide
  choices :=
    [⟨["", ".a"], by decide, by decide, ".", by decide⟩,
     ⟨["js", "ts"], by decide, by decide, "", by decide⟩]

theorem menu_expands :
    menu.text = ofString ".rc\x7b,.a\x7d.\x7bjs,ts\x7d" ∧
    ∃ texts, expandGiven 2 menu.text = .ok texts ∧ menu.Product texts ∧
      texts.length = 4 ∧ menu.Allows [0, 1] ∧ menu.fill [0, 1] = ofString ".rc.ts" := by
  rcases ((expansion_is_product 2).2 menu).2 (by decide) with ⟨texts, expanded, product⟩
  exact ⟨by decide, texts, expanded, product, product.count, by simp [Template.Allows, menu],
    by decide⟩

/-- A row of groups that have one option. -/
def row (length : Nat) : Template where
  lead := ""
  leadPlain := by decide
  choices := List.replicate length ⟨["a"], by decide, by decide, "", by decide⟩

theorem text_row (length : Nat) :
    (row length).text = (List.replicate length (ofString "\x7ba\x7d")).flatten := by
  rw [Template.text, row, List.flatMap_replicate]
  rfl

theorem rounds_row (length : Nat) : rounds (row length).text = length := by
  rw [(row length).product_expand.1, row, List.length_replicate]

/-- One group more than there may be rounds is too many. So are two thousand groups where there may
be a thousand rounds. -/
theorem long_row_is_refused :
    (∀ mostRounds, expandGiven mostRounds
      (List.replicate (mostRounds + 1) (ofString "\x7ba\x7d")).flatten = .error .tooDeep) ∧
    expandGiven 1000 (List.replicate 2000 (ofString "\x7ba\x7d")).flatten = .error .tooDeep := by
  have refused : ∀ mostRounds length, mostRounds < length → expandGiven mostRounds
      (List.replicate length (ofString "\x7ba\x7d")).flatten = .error .tooDeep := by
    intro mostRounds length many
    rw [← text_row]
    apply expandGiven_eq_error
    rwa [rounds_row]
  exact ⟨fun mostRounds => refused _ _ (Nat.lt_succ_self mostRounds), refused _ _ (by decide)⟩

end ImportAtlas.Braces
