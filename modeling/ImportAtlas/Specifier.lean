import ImportAtlas.PosixPath
import ImportAtlas.Text.Blank

/-!
# Import specifiers

An import names what it wants by a text: a path relative to the importing file, a path behind an
alias of the project root, or the name of a package. This module holds the rules on that text
alone; which files a project has is the business of the catalog.
-/

namespace ImportAtlas.Specifier

open Text

/-- Drop quotes, then blanks at both ends. -/
def clean (specifier : Text) : Text :=
  trim (specifier.filter fun point => point ≠ '"' && point ≠ '\'')

/-- Beginnings of a path alias. -/
def aliasStarts : List Text := ["@/", "~/", "#/", "src/", "./", "../"]

/-- Beginnings that always mean a file of the project. -/
def internalStarts : List Text :=
  ["./", "../", "/", "@/", "~/", "#/", "app/",
   "pages/", "components/", "lib/", "utils/", "hooks/",
   "types/", "src/", "styles/"]

/-- Endings of style sheets, which are never packages. -/
def styleEnds : List Text :=
  [".css", ".scss", ".sass", ".less"]

/-- Extensions of source files. -/
def sourceExtensions : List Text :=
  [".js", ".jsx", ".ts", ".tsx", ".mjs", ".cjs"]

/-- A specifier that is a path through an alias, the source directory or a relative step. -/
def isPathAlias (specifier : Text) : Bool :=
  aliasStarts.any fun start => startsWith specifier start

/-- The package that a specifier would import from: one segment, or two if the first is a scope.
Relative and absolute paths have none. -/
def packageName? (specifier : Text) : Option (Text) :=
  let cleaned := clean specifier
  if cleaned = [] || startsWith cleaned "." || startsWith cleaned "/" then none
  else
    match segments '/' cleaned with
    | scope :: package :: _ =>
        if startsWith scope "@" && package ≠ [] then some (scope ++ "/" ++ package)
        else some scope
    | [package] => some package
    | [] => none

/-- Letters and digits of package names. Letter case does not matter, and four letters beyond
ASCII count because a case variant of theirs is an ASCII letter. -/
def isPackageLetter (character : Char) : Bool :=
  character.isAlphanum || character = '\u0130' || character = '\u0131' ||
    character = '\u017f' || character = '\u212a'

/-- Characters of package names after the first. -/
def isPackageCharacter (character : Char) : Bool :=
  isPackageLetter character || character = '-' || character = '_' || character = '.'

/-- Drop one line end at the very end. -/
def dropFinalNewline (text : Text) : Text :=
  if text.getLast? = some (.char '\n') then text.dropLast else text

/-- A segment that could be a package name. One line end after it is tolerated. -/
def isPackageSegment : Text → Bool
  | [] => false
  | first :: rest => first.satisfies isPackageLetter &&
      (dropFinalNewline rest).all (CodePoint.satisfies isPackageCharacter)

/-- A specifier whose form is that of a package, scoped or not. -/
def looksLikePackage (specifier : Text) : Bool :=
  if startsWith specifier "@" then
    match segments '/' specifier with
    | scope :: package :: _ => scope.length > 1 && package ≠ []
    | _ => false
  else isPackageSegment (firstSegment '/' specifier)

/-- Drop one alias of the project root. -/
def dropAlias : Text → Text
  | .char '@' :: .char '/' :: rest => rest
  | .char '~' :: .char '/' :: rest => rest
  | .char '#' :: .char '/' :: rest => rest
  | path => path

/-- Drop relative steps and leading slashes, however many. -/
def dropSteps : Text → Text
  | .char '.' :: .char '/' :: rest => dropSteps rest
  | .char '.' :: .char '.' :: .char '/' :: rest => dropSteps rest
  | .char '/' :: rest => dropSteps rest
  | path => path

/-- A path as seen from the project root: without alias, relative steps and leading slashes. -/
def dropInternalStart (path : Text) : Text := dropSteps (dropAlias path)

/-- Drop a source extension at the end of a text. -/
def dropExtensionAtEnd (text : Text) : Text :=
  match sourceExtensions.find? fun extension => endsWith text extension with
  | some extension => text.take (text.length - extension.length)
  | none => text

/-- Drop a source extension, at the end or before one final line end. -/
def dropSourceExtension (text : Text) : Text :=
  if text.getLast? = some (.char '\n') then dropExtensionAtEnd text.dropLast ++ "\n"
  else dropExtensionAtEnd text

/-- The ending of a barrel file's path. -/
def indexEnd : Text := "/index"

/-- A path without the ending of a barrel file. -/
def dropIndex (path : Text) : Text :=
  if endsWith path indexEnd then path.take (path.length - indexEnd.length) else path

/-- The keys that a cleaned specifier is looked up under, the most specific first: the whole
path, the directory of a barrel file, and the last part. -/
def importKeys (specifier : Text) : List Text :=
  let path := dropInternalStart (dropSourceExtension specifier)
  let directory := dropIndex path
  let last := (PosixPath.ofText directory).name
  let keys :=
    [path] ++ (if endsWith path indexEnd then [directory] else []) ++
      (if last ≠ [] && last ≠ directory then [last] else [])
  keys.filter (· ≠ [])

/-- A specifier whose text alone shows that it names no package. -/
def isInternalByForm (specifier : Text) : Bool :=
  (internalStarts.any fun start => startsWith specifier start) || specifier.contains '\\' ||
    (styleEnds.any fun tail => endsWith specifier tail) ||
    occursIn ".types" specifier || occursIn ".schema" specifier

end ImportAtlas.Specifier
