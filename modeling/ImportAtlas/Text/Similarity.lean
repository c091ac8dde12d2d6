import ImportAtlas.Text

/-!
# Similar texts

How much two texts have in common: the longest piece that occurs in both is matched first, then
what lies before it and what lies behind it. The share of matched code points among all tells
how similar the texts are.
-/

namespace ImportAtlas.Text

/-- Length of the longest common beginning. -/
def commonStart : Text → Text → Nat
  | left :: lefts, right :: rights => if left = right then commonStart lefts rights + 1 else 0
  | _, _ => 0

/-- A piece that occurs in two texts: where it begins in each of them, and its length. -/
structure Match where
  left : Nat
  right : Nat
  length : Nat
  deriving DecidableEq, Inhabited

/-- The longest common piece. Of several the one that begins first on the left is taken, and of
those the one that begins first on the right. -/
def longestMatch (left right : Text) : Match :=
  (List.range left.length).foldl
    (fun best i =>
      (List.range right.length).foldl
        (fun best j =>
          let length := commonStart (left.drop i) (right.drop j)
          if length > best.length then ⟨i, j, length⟩ else best)
        best)
    ⟨0, 0, 0⟩

/-- Matched code points after at most a number of cuts. -/
def matchedWithin : Nat → Text → Text → Nat
  | 0, _, _ => 0
  | cuts + 1, left, right =>
      let found := longestMatch left right
      if found.length = 0 then 0
      else
        found.length + matchedWithin cuts (left.take found.left) (right.take found.right) +
          matchedWithin cuts (left.drop (found.left + found.length))
            (right.drop (found.right + found.length))

/-- Number of matched code points. Every cut uses up part of the left text. -/
def matched (left right : Text) : Nat := matchedWithin left.length left right

/-- A candidate for a word, with the code points that match and those of both texts. -/
structure Candidate where
  text : Text
  matched : Nat
  total : Nat

namespace Candidate

def of (word candidate : Text) : Candidate :=
  ⟨candidate, Text.matched candidate word, candidate.length + word.length⟩

/-- Twice the matches are at least three fifths of all code points. -/
def isClose (candidate : Candidate) : Bool := 3 * candidate.total ≤ 10 * candidate.matched

/-- The closer candidate comes first, of equally close ones the later in order. -/
def before (left right : Candidate) : Bool :=
  let leftShare := left.matched * right.total
  let rightShare := right.matched * left.total
  if leftShare = rightShare then right.text.le left.text else rightShare ≤ leftShare

end Candidate

/-- At most this many candidates are offered. -/
def mostOffered : Nat := 3

/-- The candidates that a misspelt word may have meant, in order. -/
def suggestions (word : Text) (candidates : List Text) : List Text :=
  let close := (candidates.map (Candidate.of word)).filter Candidate.isClose
  sorted (((close.mergeSort Candidate.before).take mostOffered).map Candidate.text)

end ImportAtlas.Text
