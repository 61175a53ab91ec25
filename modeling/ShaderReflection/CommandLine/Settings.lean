import ShaderReflection.Buffer
import ShaderReflection.CommandLine.Argument
import ShaderReflection.Text.Integer

/-! What a command line asks for. Options act from left to right; the first operand is the input. -/

namespace ShaderReflection.CommandLine

/-- A limit as it is given. -/
inductive LimitValue where
  | number (n : Int)
  /-- A terminator in place of a number. It cannot be compared with a length. -/
  | blank
deriving DecidableEq, Repr

namespace LimitValue

/-- The limit that stops where a given one does. What cannot be compared stops at the first
character. -/
def effective : LimitValue → Int
  | number n => n
  | blank => 0

end LimitValue

/-- What a command line asks for. -/
structure Settings where
  input : Option String := none
  noSource : Bool := false
  strict : Bool := false
  wordLimit : Option LimitValue := none
  sourceLimit : Option LimitValue := none
deriving DecidableEq, Repr

namespace Settings

/-- The limits of the build. -/
def limits (settings : Settings) : Limits where
  word := settings.wordLimit.map LimitValue.effective
  source := settings.sourceLimit.map LimitValue.effective

/-- Reads the value of a limit. -/
def readLimit (switch : Switch) (text : String) : Except UsageError LimitValue :=
  match Text.integer? text with
  | some n => .ok (.number n)
  | none => .error (.invalidInteger switch text)

/-- Reads the value of a limit that is attached to its option. -/
def readAttachedLimit (switch : Switch) (text : String) : Except UsageError LimitValue :=
  if text = "--" then .ok .blank else readLimit switch text

/-- Sets a limit. -/
def setLimit (settings : Settings) (switch : Switch) (value : LimitValue) : Settings :=
  match switch with
  | .maxWordLength => { settings with wordLimit := some value }
  | .maxSectionLength => { settings with sourceLimit := some value }
  | _ => settings

end Settings

/-- What is to be done. -/
inductive Request where
  | help
  | version
  | misuse (error : UsageError)
  | run (settings : Settings)
deriving DecidableEq, Repr

namespace Request

/-- Ends the reading of a command line. Arguments that nothing was found for are an error. -/
def conclude (settings : Settings) (surplus : List String) : Request :=
  if surplus.isEmpty then .run settings else .misuse (.unrecognized surplus)

/-- Follows arguments from left to right, after those that led to the given settings and left the
given surplus. A terminator is passed over before or directly behind the input. -/
def follow (settings : Settings) (surplus : List String) : List Argument → Request
  | [] => conclude settings surplus
  | .shortHelp none :: _ => .help
  | .shortHelp (some attached) :: _ =>
      match attached.toList.dropWhile (· = 'h') with
      | [] => if attached = "" then .misuse (.unexpectedValue .help "") else .help
      | left => .misuse (.unexpectedValue .help (String.ofList left))
  | .switch switch (some value) :: rest =>
      if switch.takesValue then
        match Settings.readAttachedLimit switch value with
        | .error e => .misuse e
        | .ok limit => follow (settings.setLimit switch limit) surplus rest
      else .misuse (.unexpectedValue switch value)
  | .switch .help none :: _ => .help
  | .switch .version none :: _ => .version
  | .switch .noSource none :: rest => follow { settings with noSource := true } surplus rest
  | .switch .strict none :: rest => follow { settings with strict := true } surplus rest
  | .switch switch none :: .operand value :: rest =>
      match Settings.readLimit switch value with
      | .error e => .misuse e
      | .ok limit => follow (settings.setLimit switch limit) surplus rest
  | .switch switch none :: _ => .misuse (.missingValue switch)
  | .unknown text :: rest => follow settings (surplus ++ [text]) rest
  | .operand text :: .terminator :: rest =>
      if settings.input.isNone then follow { settings with input := some text } surplus rest
      else follow settings (surplus ++ [text, "--"]) rest
  | .operand text :: rest =>
      if settings.input.isNone then follow { settings with input := some text } surplus rest
      else follow settings (surplus ++ [text]) rest
  | .terminator :: rest =>
      if settings.input.isNone then follow settings surplus rest
      else follow settings (surplus ++ ["--"]) rest

/-- What a command line asks for. -/
def ofArguments (arguments : List String) : Request :=
  match Argument.readAll arguments with
  | .error e => .misuse e
  | .ok read => follow {} [] read

end Request

end ShaderReflection.CommandLine
