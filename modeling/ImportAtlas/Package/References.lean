import ImportAtlas.Specifier

/-!
# References in configuration files

A configuration file refers to a package by `require` or `import` with a quoted specifier in
parentheses, or by `from` or `import` with a quoted specifier after blanks. The file is read from
left to right; after a reference reading goes on behind it, otherwise one code point further.
-/

namespace ImportAtlas.References

open Text

/-- A quote of either kind. -/
def isQuote (point : CodePoint) : Bool := point = '\'' || point = '"'

/-- A non-empty specifier between quotes, and the text behind it. The two quotes may differ. -/
def quotedText? : Text → Option (Text × Text)
  | [] => none
  | quote :: text =>
      if !isQuote quote then none
      else
        let specifier := text.takeWhile fun point => !isQuote point
        match text.dropWhile fun point => !isQuote point with
        | [] => none
        | _ :: rest => if specifier = [] then none else some (specifier, rest)

/-- The text behind one of some words that it begins with. -/
def afterWord? (words : List Text) (text : Text) : Option Text :=
  words.findSome? fun word => word.isPrefixOf? text

/-- The text behind a mark, which may have blanks before it. -/
def afterMark? (mark : CodePoint) (text : Text) : Option Text :=
  match text.dropWhile isBlank with
  | [] => none
  | point :: rest => if point = mark then some rest else none

/-- A call: `require` or `import` with a quoted specifier in parentheses. -/
def call? (text : Text) : Option (Text × Text) := do
  let rest ← afterWord? ["require", "import"] text
  let rest ← afterMark? '(' rest
  let (specifier, rest) ← quotedText? (rest.dropWhile isBlank)
  let rest ← afterMark? ')' rest
  return (specifier, rest)

/-- A statement: `from` or `import`, at least one blank, and a quoted specifier. -/
def statement? (text : Text) : Option (Text × Text) := do
  let rest ← afterWord? ["from", "import"] text
  match rest with
  | [] => none
  | point :: _ => if isBlank point then quotedText? (rest.dropWhile isBlank) else none

/-- A reference at the beginning of a text, and the text behind it. -/
def reference? (text : Text) : Option (Text × Text) :=
  match call? text with
  | some found => some found
  | none => statement? text

/-- Specifiers of all references, where the first `skip` code points belong to a reference that
has been read. -/
def specifiersFrom (skip : Nat) : Text → List Text
  | [] => []
  | point :: text =>
      match skip with
      | skip + 1 => specifiersFrom skip text
      | 0 =>
          match reference? (point :: text) with
          | some (specifier, rest) =>
              specifier :: specifiersFrom (text.length - rest.length) text
          | none => specifiersFrom 0 text

/-- Specifiers of all references in a text. -/
def specifiers (text : Text) : List Text := specifiersFrom 0 text

/-- The package that a specifier refers to, unless its name is a path. -/
def package? (specifier : Text) : Option Text :=
  (Specifier.packageName? specifier).filter fun name => name ≠ [] && !Specifier.isPathAlias name

/-- The packages that a text refers to, each once. -/
def packages (text : Text) : List Text :=
  ((specifiers text).filterMap package?).eraseDups

end ImportAtlas.References
