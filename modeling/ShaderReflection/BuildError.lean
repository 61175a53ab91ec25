import ShaderReflection.Buffer

/-! The reasons for which a build fails. -/

namespace ShaderReflection

/-- A reason for which a build fails. -/
inductive BuildError where
  | missingVertexStage
  | noVertexInputs
  | missingFragmentStage
  | noFragmentOutputs
  | overflow (cause : Overflow)
deriving DecidableEq, Repr

namespace BuildError

/-- The number of a failure, which is also the exit code. Zero is left for success. -/
def code : BuildError → Nat
  | missingVertexStage => 1
  | noVertexInputs => 2
  | missingFragmentStage => 3
  | noFragmentOutputs => 4
  | overflow _ => 5

/-- The name of a failure. -/
def label : BuildError → String
  | missingVertexStage => "MISSING_VERTEX_STAGE"
  | noVertexInputs => "NO_VERTEX_INPUTS"
  | missingFragmentStage => "MISSING_FRAGMENT_STAGE"
  | noFragmentOutputs => "NO_FRAGMENT_OUTPUTS"
  | overflow _ => "SCANNER_OVERFLOW"

/-- The wording of a failure. -/
def message : BuildError → String
  | missingVertexStage => "Shader has no vertex stage"
  | noVertexInputs => "Vertex stage declares no inputs"
  | missingFragmentStage => "Shader has no fragment stage"
  | noFragmentOutputs => "Fragment stage declares no outputs"
  | overflow cause => cause.message

/-- The part of a build in which a failure occurs. -/
def phase : BuildError → String
  | overflow _ => "scanning the source"
  | _ => "parsing stages"

/-- The report of a failed build. -/
def report (e : BuildError) : String :=
  "Error with code '" ++ toString e.code ++ "' occurred while " ++ e.phase ++ ": " ++ e.message

end BuildError

end ShaderReflection
