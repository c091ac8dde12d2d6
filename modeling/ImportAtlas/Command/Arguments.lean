import ImportAtlas.Text.Segment
import ImportAtlas.Text.Similarity

/-!
# Command-line arguments

A command has options and positional arguments. Options may stand before, between and after the
positionals. A long option may carry its value behind an equals sign, short options may be run
together, and two dashes end the options.
-/

namespace ImportAtlas.Command

/-- An option of a command. -/
structure OptionSpec where
  /-- All spellings, in the order in which messages name them. -/
  names : List Text
  takesValue : Bool
  deriving DecidableEq, Repr

/-- Why arguments cannot be read. An unknown option comes with those that may have been meant. -/
inductive ScanFault where
  | noSuchOption (name : Text) (similar : List Text)
  | needsValue (name : Text)
  | takesNoValue (name : Text)
  deriving DecidableEq, Repr

/-- What has been read: options in the order given, with their values, and positionals. -/
structure Scan where
  options : List (OptionSpec × Option Text) := []
  positionals : List Text := []
  deriving DecidableEq, Repr

namespace OptionSpec

/-- A spelling of one dash and one code point. -/
def isShort (name : Text) : Bool := name.length = 2

/-- The option with a long spelling. -/
def findLong? (specs : List OptionSpec) (name : Text) : Option OptionSpec :=
  specs.find? fun spec => spec.names.any fun other => other == name && !isShort other

/-- All long spellings. -/
def longNames (specs : List OptionSpec) : List Text :=
  (specs.flatMap names).filter fun name => !isShort name

/-- The option with a short spelling. -/
def findShort? (specs : List OptionSpec) (name : Text) : Option OptionSpec :=
  specs.find? fun spec => spec.names.any fun other => other == name && isShort other

end OptionSpec

/-- Cut at the first equals sign, if there is one. -/
def cutAtEquals (argument : Text) : Text × Option Text :=
  match argument.dropWhile (· ≠ .char '=') with
  | [] => (argument, none)
  | _ :: value => (argument.takeWhile (· ≠ .char '='), some value)

/-- What an option in an argument asks for. -/
inductive Reading where
  /-- The options that were read, all with their values. -/
  | complete (options : List (OptionSpec × Option Text))
  /-- The last option takes the next argument as its value. -/
  | pending (options : List (OptionSpec × Option Text)) (spec : OptionSpec) (name : Text)

/-- Read short options that are run together. -/
def readShort (specs : List OptionSpec) (read : List (OptionSpec × Option Text)) :
    Text → Except ScanFault Reading
  | [] => .ok (.complete read)
  | point :: rest =>
      let name : Text := ['-', point]
      match OptionSpec.findShort? specs name with
      | none => .error (.noSuchOption name [])
      | some spec =>
          if spec.takesValue then
            if rest.isEmpty then .ok (.pending read spec name)
            else .ok (.complete (read ++ [(spec, some rest)]))
          else readShort specs (read ++ [(spec, none)]) rest

/-- Read an argument that begins with a dash. -/
def readOption (specs : List OptionSpec) (argument : Text) : Except ScanFault Reading :=
  let (name, value) := cutAtEquals argument
  match OptionSpec.findLong? specs name, value with
  | some spec, some value =>
      if spec.takesValue then .ok (.complete [(spec, some value)])
      else .error (.takesNoValue name)
  | some spec, none =>
      if spec.takesValue then .ok (.pending [] spec name)
      else .ok (.complete [(spec, none)])
  | none, _ =>
      if Text.startsWith argument "--" then
        .error (.noSuchOption name (Text.suggestions name (OptionSpec.longNames specs)))
      else readShort specs [] (argument.drop 1)

/-- Whether an argument is read as an option. A lone dash is not. -/
def isOption (argument : Text) : Bool :=
  Text.startsWith argument "-" && argument ≠ Text.ofString "-"

/-- Read arguments. If positionals may not stand between options, reading ends at the first one. -/
def scanFrom (specs : List OptionSpec) (interspersed : Bool) (scan : Scan) :
    List Text → Except ScanFault Scan
  | [] => .ok scan
  | argument :: rest =>
      if argument = Text.ofString "--" then
        .ok { scan with positionals := scan.positionals ++ rest }
      else if isOption argument then
        match readOption specs argument with
        | .error fault => .error fault
        | .ok (.complete options) =>
            scanFrom specs interspersed { scan with options := scan.options ++ options } rest
        | .ok (.pending options spec name) =>
            match rest with
            | [] => .error (.needsValue name)
            | value :: rest =>
                scanFrom specs interspersed
                  { scan with options := scan.options ++ options ++ [(spec, some value)] } rest
      else if interspersed then
        scanFrom specs interspersed
          { scan with positionals := scan.positionals ++ [argument] } rest
      else .ok { scan with positionals := scan.positionals ++ argument :: rest }

/-- Read all arguments of a command. -/
def scan (specs : List OptionSpec) (interspersed : Bool) (arguments : List Text) :
    Except ScanFault Scan :=
  scanFrom specs interspersed {} arguments

namespace Scan

/-- Whether an option was given. -/
def has (scan : Scan) (spec : OptionSpec) : Bool := scan.options.any fun given => given.1 = spec

/-- The value that was given last. -/
def value? (scan : Scan) (spec : OptionSpec) : Option Text :=
  (scan.options.reverse.find? fun given => given.1 = spec).bind Prod.snd

/-- The options that were given, in the order of their first occurrence. -/
def given (scan : Scan) : List OptionSpec := (scan.options.map Prod.fst).eraseDups

end Scan

end ImportAtlas.Command
