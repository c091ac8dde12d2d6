import ImportAtlas.Command.Arguments
import ImportAtlas.Text.Quoted

/-!
# How the program is called

The commands with their options, and the messages for arguments that are refused. Of the pages
that explain a command there is only the usage line, which messages begin with.
-/

namespace ImportAtlas.Command

/-! ## Commands and options -/

/-- The commands. -/
inductive Kind where
  | analyze
  | cycles
  | zombies
  | serve
  deriving DecidableEq, Repr

namespace Kind

def all : List Kind := [.analyze, .cycles, .zombies, .serve]

def name : Kind → Text
  | .analyze => "analyze"
  | .cycles => "cycles"
  | .zombies => "zombies"
  | .serve => "serve"

def ofName? (name : Text) : Option Kind := all.find? fun kind => kind.name == name

/-- Every command but the service reads a components file. -/
def readsFile (kind : Kind) : Bool := kind ≠ .serve

end Kind

def verboseOption : OptionSpec := ⟨["--verbose", "-v"], false⟩
def versionOption : OptionSpec := ⟨["--version"], false⟩
def helpOption : OptionSpec := ⟨["--help"], false⟩
def projectOption : OptionSpec := ⟨["--project", "-p"], true⟩
def outputOption : OptionSpec := ⟨["-o", "--output"], true⟩
def includeDevOption : OptionSpec := ⟨["--include-dev"], false⟩
def portOption : OptionSpec := ⟨["--port", "-p"], true⟩
def hostOption : OptionSpec := ⟨["--host"], true⟩

/-- Options that stand before the command. -/
def commonOptions : List OptionSpec := [versionOption, verboseOption, helpOption]

def Kind.options : Kind → List OptionSpec
  | .analyze => [projectOption, outputOption, includeDevOption, helpOption]
  | .cycles | .zombies => [helpOption]
  | .serve => [portOption, hostOption, helpOption]

/-- The name under which the program is called. -/
def programName : Text := "cli"

/-- The name of the positional argument. -/
def argumentName : Text := "COMPONENTS_FILE"

/-- How a command is called, or the program if no command is given. -/
def usageLine : Option Kind → Text
  | none => "Usage: " ++ programName ++ " [OPTIONS] COMMAND [ARGS]..."
  | some kind =>
      "Usage: " ++ programName ++ " " ++ kind.name ++ " [OPTIONS]" ++
        (if kind.readsFile then " " ++ argumentName else "")

def hintLine (kind : Option Kind) : Text :=
  let command : Text :=
    match kind with
    | some kind => " " ++ kind.name
    | none => []
  "Try '" ++ programName ++ command ++ " --help' for help."

/-- The names of an option as messages give them. -/
def OptionSpec.hint (spec : OptionSpec) : Text :=
  Text.join " / " (spec.names.map fun name => "'" ++ name ++ "'")

/-! ## Refused arguments -/

/-- Why arguments are refused. An unknown command comes with those that may have been meant. -/
inductive UsageFault where
  | scan (fault : ScanFault)
  | noSuchCommand (name : Text) (similar : List Text)
  | missingCommand
  | missingArgument
  | extraArguments (arguments : List Text)
  | invalidValue (hint reason : Text)
  deriving DecidableEq, Repr

/-- The sentence that offers what may have been meant. -/
def offer : List Text → Text
  | [] => ""
  | [name] => " Did you mean " ++ name.quoted ++ "?"
  | names => " (Did you mean one of: " ++ Text.join ", " (names.map Text.quoted) ++ "?)"

def ScanFault.message : ScanFault → Text
  | .noSuchOption name similar => "No such option " ++ name.quoted ++ "." ++ offer similar
  | .needsValue name => "Option " ++ name.quoted ++ " requires an argument."
  | .takesNoValue name => "Option " ++ name.quoted ++ " does not take a value."

/-- A fault in the value of an option is reported without the lines on usage. -/
def ScanFault.showsUsage : ScanFault → Bool
  | .noSuchOption _ _ => true
  | .needsValue _ | .takesNoValue _ => false

def UsageFault.message : UsageFault → Text
  | .scan fault => fault.message
  | .noSuchCommand name similar => "No such command " ++ name.quoted ++ "." ++ offer similar
  | .missingCommand => "Missing command."
  | .missingArgument => "Missing argument '" ++ argumentName ++ "'."
  | .extraArguments [argument] => "Got unexpected extra argument (" ++ argument ++ ")"
  | .extraArguments arguments =>
      "Got unexpected extra arguments (" ++ Text.join " " arguments ++ ")"
  | .invalidValue hint reason => "Invalid value for " ++ hint ++ ": " ++ reason

def UsageFault.showsUsage : UsageFault → Bool
  | .scan fault => fault.showsUsage
  | _ => true

end ImportAtlas.Command
