import ImportAtlas.Text

/-!
# Faults

The reasons for which reading or analysing fails. Each reason is a constructor, so that a
statement can say exactly when it arises; the texts shown to a user are made from them.
-/

namespace ImportAtlas

/-- Why a file could not be opened. -/
inductive FileFault where
  | notFound
  | isDirectory
  | notDirectory
  /-- A part of the path, or the whole of it, is longer than a file system takes. -/
  | nameTooLong
  /-- The path holds the code point zero. -/
  | nullInPath
  /-- The path holds half of a surrogate pair. -/
  | brokenPath
  deriving DecidableEq, Repr

/-- Why an operation failed. -/
inductive Fault where
  /-- A record lacks a field that it must have. -/
  | missingField (field : Text)
  /-- A record is not an object. -/
  | notRecord
  /-- A value that cannot be gone through item by item stands where items are expected. -/
  | notIterable
  /-- A list or an object stands where a name is expected. -/
  | notName
  /-- A path or a directory is no text. -/
  | notText
  /-- A name that has to be put together with others is no text. -/
  | notJoinable
  /-- The data holds no list of records. -/
  | notRecords
  /-- A file does not hold JSON. -/
  | invalidJson (path : Text)
  /-- An integer has more digits than are read. -/
  | hugeInteger (digits : Nat)
  /-- Lists and objects are nested deeper than is read. -/
  | tooDeep
  /-- A file is not valid UTF-8. -/
  | undecodable
  /-- A file could not be opened. -/
  | file (reason : FileFault)
  /-- An item of a list of pairs is no pair. -/
  | notPair
  /-- A diagram element is of no known kind. -/
  | unknownKind
  /-- An integer is too large to meet a double. -/
  | overflow
  /-- A text that holds half of a surrogate pair cannot be written. -/
  | brokenText
  /-- A number that is infinite or undefined cannot be sent. -/
  | notFinite
  /-- A path begins with the home of a user who has none. -/
  | unknownHome
  deriving DecidableEq, Repr

namespace Fault

/-- The sentence shown for a fault of a components file, given what the host says about it. Other
faults are not reported. -/
def message (detail : Text) : Fault → Option Text
  | .notRecords =>
      some "Expected a list of components or an object with a 'components' list"
  | .invalidJson path => some ("Invalid JSON in " ++ path ++ ": " ++ detail)
  | .hugeInteger _ | .undecodable | .file _ => some detail
  | _ => none

end Fault

end ImportAtlas
