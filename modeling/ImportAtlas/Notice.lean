import ImportAtlas.Text

/-!
# Notices

What a run tells besides its result: warnings, and on request what each step has done.
-/

namespace ImportAtlas

inductive NoticeLevel where
  | debug
  | info
  | warning
  deriving DecidableEq, Repr

/-- A line for the one who runs the program. -/
structure Notice where
  level : NoticeLevel
  /-- The part of the program that speaks. -/
  source : Text
  message : Text
  deriving DecidableEq, Repr

namespace Notice

def levelText : NoticeLevel → Text
  | .debug => "DEBUG"
  | .info => "INFO"
  | .warning => "WARNING"

def text (notice : Notice) : Text :=
  levelText notice.level ++ " " ++ notice.source ++ ": " ++ notice.message

/-- Warnings are always shown, the rest on request. -/
def isShown (verbose : Bool) (notice : Notice) : Bool := verbose || notice.level = .warning

end Notice

end ImportAtlas
