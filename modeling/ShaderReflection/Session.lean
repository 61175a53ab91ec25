import ShaderReflection.Build
import ShaderReflection.Files.ReadError

/-! Build sessions. A session can be fed piece by piece, keeps what it has taken in even when a
limit stops it, and makes one shader.
-/

namespace ShaderReflection

/-- The state of a session. -/
structure Session where
  limits : Limits := {}
  scanner : Scanner := {}
  /-- Why the build of this session failed. -/
  error : Option BuildError := none
  /-- Whether this session has made its build. -/
  used : Bool := false
deriving DecidableEq

/-- A call to a session. -/
inductive Call where
  /-- Scan a further line. -/
  | scanLine (line : String)
  /-- End the text. -/
  | finish
  /-- Scan lines and end the text. -/
  | scan (text : String)
  /-- Build the shader of a text. -/
  | build (text : String)
  /-- Build the shader of a file, of which the text is known or why it could not be read. -/
  | buildFile (text : Except ReadError String)

/-- Why a call is refused or stopped. -/
inductive CallError where
  | overflow (cause : Overflow)
  | alreadyUsed
  | unreadable (cause : ReadError)
deriving DecidableEq

namespace CallError

/-- The wording of a refusal. -/
def message : CallError → String
  | overflow cause => cause.message
  | alreadyUsed => "ShaderBuilder is single-use; create a new builder for each shader"
  | unreadable cause => cause.message

end CallError

namespace Session

/-- A session goes on with what a scan has reached, whether it was stopped or not. -/
def proceed (session : Session) (scanned : Except Interruption Scanner)
    : Session × Except CallError (Option Shader) :=
  match scanned with
  | .ok scanner => ({ session with scanner }, .ok none)
  | .error stopped =>
      ({ session with scanner := stopped.scanner }, .error (.overflow stopped.overflow))

/-- Makes the build of a session. -/
def build (session : Session) (text : String) : Session × Except CallError (Option Shader) :=
  if session.used then (session, .error .alreadyUsed)
  else
    match session.scanner.scan session.limits text with
    | .error stopped =>
        ({ session with
            scanner := stopped.scanner, error := some (.overflow stopped.overflow), used := true },
          .ok (some {}))
    | .ok scanner =>
        let result := scanner.result
        ({ session with
            scanner := { scanner with warnings := result.warnings }
            error := result.error
            used := true },
          .ok (some result.shader))

/-- Carries out a call. Only a build yields a shader, the empty one if it fails. -/
def perform (session : Session) : Call → Session × Except CallError (Option Shader)
  | .scanLine line =>
      session.proceed (session.scanner.scanLine session.limits line.toList)
  | .finish => ({ session with scanner := session.scanner.finish }, .ok none)
  | .scan text => session.proceed (session.scanner.scan session.limits text)
  | .build text => session.build text
  | .buildFile (.ok text) => session.build text
  | .buildFile (.error cause) => (session, .error (.unreadable cause))

end Session

end ShaderReflection
