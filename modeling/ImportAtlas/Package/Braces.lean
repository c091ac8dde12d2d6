import ImportAtlas.Fault
import ImportAtlas.Text.Segment

/-!
# Brace expansion

A pattern may hold groups of options between braces, with commas between the options. The
leftmost group that has no group inside is replaced by each of its options in turn, until no
group is left. Every round uses up an opening brace.
-/

namespace ImportAtlas.Braces

/-- A pattern cut at a group: the text before it, what stands between its braces, and the text
after it. -/
structure Group where
  head : Text
  body : Text
  tail : Text
  deriving DecidableEq

/-- Look for the end of a group. `before` has been read, in reverse. If the last brace in it
opens a group, `inside` holds the text before that brace and the text after it, in reverse. -/
def scan (before : Text) (inside : Option (Text × Text)) :
    Text → Option Group
  | [] => none
  | point :: rest =>
      if point = '\x7b' then scan (point :: before) (some (before, [])) rest
      else if point = '\x7d' then
        match inside with
        | some (head, body) => some ⟨head.reverse, body.reverse, rest⟩
        | none => scan (point :: before) none rest
      else
        scan (point :: before) (inside.map fun (head, body) => (head, point :: body)) rest

/-- The leftmost group without braces inside. -/
def group? (pattern : Text) : Option Group := scan [] none pattern

/-- Replace groups for at most a number of rounds. -/
def expandRounds : Nat → Text → List Text
  | 0, pattern => [pattern]
  | rounds + 1, pattern =>
      match group? pattern with
      | none => [pattern]
      | some group =>
          (Text.segments ',' group.body).flatMap fun option =>
            expandRounds rounds (group.head ++ option ++ group.tail)

/-- All texts that a pattern stands for, the options of the leftmost group varying slowest. -/
def expand (pattern : Text) : List Text :=
  expandRounds (pattern.count (.char '\x7b')) pattern

/-- Rounds until no group is left. They are the same for all options, which hold no braces. -/
def countRounds : Nat → Text → Nat
  | 0, _ => 0
  | rounds + 1, pattern =>
      match group? pattern with
      | none => 0
      | some group => countRounds rounds (group.head ++ group.tail) + 1

/-- Expand a pattern that is given, which takes at most so many rounds. -/
def expandGiven (mostRounds : Nat) (pattern : Text) : Except Fault (List Text) :=
  if countRounds (pattern.count (.char '\x7b')) pattern > mostRounds then .error .tooDeep
  else .ok (expand pattern)

end ImportAtlas.Braces
