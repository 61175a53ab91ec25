import ShaderReflection.CommandLine.Usage
import ShaderReflection.Text.DecimalDigit

/-! Arguments of a command line, each read on its own. -/

namespace ShaderReflection.CommandLine

/-- What an argument is. -/
inductive Argument where
  /-- An option, with the value attached to it. -/
  | switch (switch : Switch) (value : Option String)
  /-- The help option by its short name, with what is attached to it. -/
  | shortHelp (attached : Option String)
  /-- What looks like an option and is none. -/
  | unknown (text : String)
  | operand (text : String)
  /-- The end of the options. -/
  | terminator
deriving DecidableEq, Repr

namespace Argument

/-- Cuts an argument at its first `=` into a name and a value. -/
def splitValue (cs : List Char) : List Char × Option String :=
  match cs.dropWhile (· ≠ '=') with
  | [] => (cs, none)
  | _ :: value => (cs.takeWhile (· ≠ '='), some (String.ofList value))

/-- The option of a given name. -/
def named? (name : List Char) (value : Option String) : Option Argument :=
  if String.ofList name = Switch.shortHelp then some (.shortHelp value)
  else (Switch.all.find? (·.name = String.ofList name)).map (.switch · value)

/-- The options whose names begin as given. -/
def candidates (start : List Char) : List Switch :=
  Switch.all.filter fun switch => start.isPrefixOf switch.name.toList

/-- Whether a text is a minus sign and a decimal number. A line break at the end is admitted. -/
def isNegativeNumber : List Char → Bool
  | '-' :: body =>
      let digits := if body.getLast? = some '\n' then body.dropLast else body
      match digits.dropWhile Text.isDecimal with
      | [] => !digits.isEmpty
      | '.' :: fraction => !fraction.isEmpty && fraction.all Text.isDecimal
      | _ => false
  | _ => false

/-- What an argument is that names no option: negative numbers and texts with spaces are
operands. -/
def ofOther (text : String) : Argument :=
  let cs := text.toList
  if isNegativeNumber cs ∨ ' ' ∈ cs then .operand text else .unknown text

/-- Reads an argument that starts with a minus sign and is not the full name of an option. The
beginning of a name stands for the option if there is only one such option. -/
def readAbbreviated (text : String) : Except UsageError Argument :=
  match text.toList with
  | '-' :: '-' :: rest =>
      let (start, value) := splitValue ('-' :: '-' :: rest)
      match candidates start with
      | [] => .ok (ofOther text)
      | [only] => .ok (.switch only value)
      | several => .error (.ambiguous text several)
  | '-' :: 'h' :: attached => .ok (.shortHelp (some (String.ofList attached)))
  | _ => .ok (ofOther text)

/-- Reads an argument before the end of the options. -/
def read (text : String) : Except UsageError Argument :=
  let cs := text.toList
  if cs.head? ≠ some '-' ∨ cs = ['-'] then .ok (.operand text)
  else
    let (name, value) := splitValue cs
    match named? cs none <|> named? name value with
    | some argument => .ok argument
    | none => readAbbreviated text

/-- Reads the arguments of a command line. All arguments behind the terminator are operands. -/
def readAll : List String → Except UsageError (List Argument)
  | [] => .ok []
  | text :: rest =>
      if text = "--" then .ok (.terminator :: rest.map .operand)
      else
        match read text with
        | .error e => .error e
        | .ok argument => (readAll rest).map (argument :: ·)

end Argument

end ShaderReflection.CommandLine
