import ShaderReflection.Build
import ShaderReflection.CommandLine.Settings
import ShaderReflection.Files.ReadError
import ShaderReflection.Reflection

/-! Carrying out a command line. -/

namespace ShaderReflection.CommandLine

/-- Why a run breaks off without an exit code of its own. -/
inductive Fault where
  | unreadable (cause : ReadError)
  /-- A limit that cannot be compared with a length was reached. -/
  | incomparableLimit
deriving DecidableEq

namespace Fault

/-- The wording of a fault. -/
def message : Fault → String
  | unreadable cause => cause.message
  | incomparableLimit => "'>=' not supported between instances of 'int' and 'list'"

end Fault

/-- How a run ends. -/
inductive Ending where
  | exit (code : Nat)
  | fault (cause : Fault)
deriving DecidableEq

/-- The outcome of a run: how it ends and what it has written. -/
structure Outcome where
  ending : Ending
  stdout : String := ""
  stderr : String := ""
deriving DecidableEq

namespace Outcome

/-- A run that ends with an error. -/
def ofError (code : Nat) (message : String) : Outcome :=
  { ending := .exit code, stderr := "Error: " ++ message ++ "\n" }

end Outcome

namespace Settings

/-- Whether an overflow is due to a limit that is no number. -/
def isIncomparable (settings : Settings) : BuildError → Bool
  | .overflow (.word _ _) => settings.wordLimit = some .blank
  | .overflow (.source _) => settings.sourceLimit = some .blank
  | _ => false

/-- The lines that show warnings. -/
def warningText (warnings : Array Warning) : String :=
  String.join (warnings.toList.map fun w => "Warning: " ++ w.message ++ "\n")

/-- The outcome for a build of the file with the given name. -/
def outcomeOf (settings : Settings) (sourceName : String) (result : BuildResult) : Outcome :=
  let warnings := warningText result.warnings
  match result.error with
  | some e =>
      if settings.isIncomparable e then { ending := .fault .incomparableLimit }
      else
        { ending := .exit e.code, stderr := warnings ++ "Error: " ++ e.report ++ "\n" }
  | none =>
      if settings.strict && !result.warnings.isEmpty then
        { ending := .exit 1
          stderr := warnings ++ "Error: " ++ toString result.warnings.size
            ++ " warning(s) with --strict\n" }
      else
        { ending := .exit 0
          stdout := result.shader.reflectionText sourceName (!settings.noSource)
          stderr := warnings }

/-- The outcome for a file that was read, or could not be. -/
def outcomeOfFile (settings : Settings) (path : Path) : Except ReadError String → Outcome
  | .ok text => settings.outcomeOf path.name (build settings.limits text)
  | .error (.path .notFound _) => .ofError 1 ("file not found: " ++ path.text)
  | .error (.path .notADirectory _) => .ofError 1 ("file not found: " ++ path.text)
  | .error .nullInPath => .ofError 1 ("file not found: " ++ path.text)
  | .error e => { ending := .fault (.unreadable e) }

end Settings

namespace Request

/-- The file that has to be read. -/
def inputPath? : Request → Option Path
  | .run settings => settings.input.map Path.ofText
  | _ => none

/-- The outcome of a request, given how files are read. -/
def outcome (request : Request) (read : Path → Except ReadError String) : Outcome :=
  match request with
  | .help => { ending := .exit 0, stdout := helpText }
  | .version => { ending := .exit 0, stdout := versionText }
  | .misuse e => { ending := .exit 2, stderr := errorText e }
  | .run settings =>
      match settings.input with
      | none => { ending := .exit 0, stdout := helpText }
      | some input => settings.outcomeOfFile (.ofText input) (read (.ofText input))

end Request

/-- Carries out a command line, given how files are read. -/
def run (arguments : List String) (read : Path → Except ReadError String) : Outcome :=
  (Request.ofArguments arguments).outcome read

end ShaderReflection.CommandLine
