import ShaderReflection.Text.Quoted

/-! The options of the command line, its texts, and what can be wrong with a command line. -/

namespace ShaderReflection.CommandLine

/-- An option. -/
inductive Switch where
  | help
  | noSource
  | strict
  | maxWordLength
  | maxSectionLength
  | version
deriving DecidableEq, Repr

namespace Switch

/-- All options, in the order in which they are listed. -/
def all : List Switch :=
  [help, noSource, strict, maxWordLength, maxSectionLength, version]

/-- The name of an option. -/
def name : Switch → String
  | help => "--help"
  | noSource => "--no-source"
  | strict => "--strict"
  | maxWordLength => "--max-word-length"
  | maxSectionLength => "--max-section-length"
  | version => "--version"

/-- The short name of the help option. -/
def shortHelp : String := "-h"

/-- An option as reports show it, with all its names. -/
def shown : Switch → String
  | help => shortHelp ++ "/" ++ help.name
  | switch => switch.name

/-- Whether an option takes a value. -/
def takesValue : Switch → Bool
  | maxWordLength => true
  | maxSectionLength => true
  | _ => false

end Switch

/-- What is wrong with a command line. -/
inductive UsageError where
  | ambiguous (argument : String) (candidates : List Switch)
  | missingValue (switch : Switch)
  | invalidInteger (switch : Switch) (text : String)
  | unexpectedValue (switch : Switch) (text : String)
  | unrecognized (arguments : List String)
deriving DecidableEq, Repr

namespace UsageError

/-- The wording of an error. -/
def message : UsageError → String
  | ambiguous argument candidates =>
      "ambiguous option: " ++ argument ++ " could match "
        ++ ", ".intercalate (candidates.map Switch.name)
  | missingValue switch => "argument " ++ switch.shown ++ ": expected one argument"
  | invalidInteger switch text =>
      "argument " ++ switch.shown ++ ": invalid int value: " ++ Text.quoted text
  | unexpectedValue switch text =>
      "argument " ++ switch.shown ++ ": ignored explicit argument " ++ Text.quoted text
  | unrecognized arguments => "unrecognized arguments: " ++ " ".intercalate arguments

end UsageError

/-- The name of the program. -/
def programName : String := "shaderpc"

/-- The version text. -/
def versionText : String :=
  programName ++ " 0.1.0\n"

/-- The usage text. -/
def usageText : String :=
  "usage: shaderpc [-h] [--no-source] [--strict] [--max-word-length N]\n"
    ++ "                [--max-section-length N] [--version]\n"
    ++ "                [input]\n"

/-- The help text. -/
def helpText : String :=
  usageText ++ "\n"
    ++ "Shader precompiler: extracts stage interfaces and the vertex buffer layout\n"
    ++ "\n"
    ++ "positional arguments:\n"
    ++ "  input                 Input shader file\n"
    ++ "\n"
    ++ "options:\n"
    ++ "  -h, --help            show this help message and exit\n"
    ++ "  --no-source           Leave stage source text out of the reflection output\n"
    ++ "  --strict              Treat warnings as errors\n"
    ++ "  --max-word-length N   Fail when a single word exceeds N characters\n"
    ++ "  --max-section-length N\n"
    ++ "                        Fail when a section's source exceeds N characters\n"
    ++ "  --version             show program's version number and exit\n"

/-- The report of a command line with an error. -/
def errorText (e : UsageError) : String :=
  usageText ++ programName ++ ": error: " ++ e.message ++ "\n"

end ShaderReflection.CommandLine
