import ImportAtlas.Text

/-!
# Cutting text at a separator

`segments` cuts at every occurrence of a separator, so there is always one more segment than
there are separators and joining the segments gives the text back.
-/

namespace ImportAtlas.Text

/-- The pieces of a text between occurrences of a separator. -/
def segments (separator : CodePoint) : Text → List Text
  | [] => [[]]
  | point :: rest =>
      if point = separator then [] :: segments separator rest
      else
        match segments separator rest with
        | [] => [[point]]
        | segment :: others => (point :: segment) :: others

theorem segments_ne_nil (separator : CodePoint) (text : Text) :
    segments separator text ≠ [] := by
  cases text with
  | nil => simp [segments]
  | cons point rest =>
      unfold segments
      split
      · simp
      · split <;> simp

/-- The piece after the last separator, the whole text if there is none. -/
def lastSegment (separator : CodePoint) (text : Text) : Text :=
  (segments separator text).getLast (segments_ne_nil separator text)

/-- The piece before the first separator. -/
def firstSegment (separator : CodePoint) (text : Text) : Text :=
  text.takeWhile (· ≠ separator)

/-- Pieces put together with a separator between them. -/
def join (separator : Text) : List Text → Text
  | [] => []
  | [piece] => piece
  | piece :: others => piece ++ separator ++ join separator others

/-- Replace every occurrence of one code point by another. -/
def replace (old new : CodePoint) (text : Text) : Text :=
  text.map fun point => if point = old then new else point

/-- Whether one text begins with another. -/
def startsWith (text start : Text) : Bool := start.isPrefixOf text

/-- Whether one text ends with another. -/
def endsWith (text tail : Text) : Bool := tail.isSuffixOf text

/-- Whether one text occurs anywhere inside another. -/
def occursIn (piece : Text) : Text → Bool
  | [] => piece.isEmpty
  | point :: rest => piece.isPrefixOf (point :: rest) || occursIn piece rest

end ImportAtlas.Text
