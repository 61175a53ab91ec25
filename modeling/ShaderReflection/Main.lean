import ShaderReflection.CommandLine.Run
import ShaderReflection.Files.Tree

/-! The program: reads the input file, and writes the outcome of the command line. -/

namespace ShaderReflection.CommandLine

/-- The problem with a path that the system reports under a number. -/
def problemOfNumber? (number : UInt32) : Option PathProblem :=
  [PathProblem.notFound, .notADirectory, .isADirectory, .nameTooLong].find?
    fun problem => problem.number = number.toNat

/-- The problem with a path that a failed access is due to. -/
def problemOf? : IO.Error → Option PathProblem
  | .noFileOrDirectory _ _ _ => some .notFound
  | .inappropriateType _ number _ => problemOfNumber? number
  | .invalidArgument _ number _ => problemOfNumber? number
  | .resourceExhausted _ number _ => problemOfNumber? number
  | .otherError number _ => problemOfNumber? number
  | _ => none

/-- Reads a shader file. -/
def readText (path : Path) : IO (Except ReadError String) := do
  if '\x00' ∈ path.text.toList then return .error .nullInPath
  try
    let place ← IO.FS.realPath path.text
    if ← place.isDir then return .error (.path .isADirectory path)
    return textOfFile (← IO.FS.readBinFile place).toList
  catch e =>
    match problemOf? e with
    | some problem => return .error (.path problem path)
    | none => throw e

/-- Writes an outcome and gives the exit code. -/
def Outcome.emit (outcome : Outcome) : IO UInt32 := do
  (← IO.getStderr).putStr outcome.stderr
  (← IO.getStdout).putStr outcome.stdout
  match outcome.ending with
  | .exit code => return code.toUInt32
  | .fault cause =>
      (← IO.getStderr).putStr ("Error: " ++ cause.message ++ "\n")
      return 1

/-- Carries out a command line on the files of the system. -/
def execute (arguments : List String) : IO UInt32 := do
  let request := Request.ofArguments arguments
  match request.inputPath? with
  | some path =>
      let text ← readText path
      (request.outcome fun _ => text).emit
  | none => (request.outcome fun _ => .ok "").emit

end ShaderReflection.CommandLine

def main (arguments : List String) : IO UInt32 :=
  ShaderReflection.CommandLine.execute arguments
