import ShaderReflection.Text.Quoted
import ShaderReflection.Text.Utf8
import ShaderReflection.Files.Path

/-! Why a shader file cannot be read. -/

namespace ShaderReflection

/-- What is wrong with a path. -/
inductive PathProblem where
  | notFound
  | notADirectory
  | isADirectory
  | nameTooLong
deriving DecidableEq, Repr

namespace PathProblem

/-- The number of a problem in reports of the system. -/
def number : PathProblem → Nat
  | notFound => 2
  | notADirectory => 20
  | isADirectory => 21
  | nameTooLong => 36

/-- The wording of a problem in reports of the system. -/
def reason : PathProblem → String
  | notFound => "No such file or directory"
  | notADirectory => "Not a directory"
  | isADirectory => "Is a directory"
  | nameTooLong => "File name too long"

end PathProblem

/-- Why a file cannot be read as text. -/
inductive ReadError where
  /-- There is no file of that name. -/
  | path (problem : PathProblem) (path : Path)
  /-- No file name holds the character zero. -/
  | nullInPath
  /-- The bytes are not UTF-8. -/
  | encoding (cause : Text.Utf8Error)
deriving DecidableEq, Repr

namespace ReadError

/-- Where a faulty byte sequence is. -/
def place (cause : Text.Utf8Error) : String :=
  if cause.length = 1 then
    "byte 0x" ++ String.ofList (Text.hexadecimal 2 cause.first.toNat)
      ++ " in position " ++ toString cause.position
  else
    "bytes in position " ++ toString cause.position ++ "-"
      ++ toString (cause.position + cause.length - 1)

/-- The wording of an error. -/
def message : ReadError → String
  | path problem p =>
      "[Errno " ++ toString problem.number ++ "] " ++ problem.reason ++ ": " ++ Text.quoted p.text
  | nullInPath => "embedded null byte"
  | encoding cause =>
      "'utf-8' codec can't decode " ++ place cause ++ ": " ++ cause.fault.reason

end ReadError

end ShaderReflection
