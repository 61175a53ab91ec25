import ShaderReflection.Scanner.Run
import ShaderReflection.Shader
import ShaderReflection.Stage.Assembly

/-! Building a shader from its text. -/

namespace ShaderReflection

/-- The outcome of a build: a shader, or the reason why there is none; and the warnings. -/
structure BuildResult where
  shader : Shader := {}
  error : Option BuildError := none
  warnings : Array Warning := #[]
deriving DecidableEq

namespace BuildResult

/-- Whether the build succeeded. -/
def isOk (result : BuildResult) : Bool :=
  result.error.isNone

/-- The number of the failure, zero for success. -/
def code (result : BuildResult) : Nat :=
  (result.error.map BuildError.code).getD 0

/-- The name of the outcome. -/
def label (result : BuildResult) : String :=
  (result.error.map BuildError.label).getD "NONE"

/-- The reports of the failure. There is at most one. -/
def reports (result : BuildResult) : List String :=
  result.error.toList.map BuildError.report

end BuildResult

/-- The sections that a scan has collected. -/
def Scanner.sections (s : Scanner) : Sections :=
  { sources := s.sources, declarations := s.declarations }

/-- The shader with the given stages and common source, its vertex inputs in record order. -/
def Shader.ofStages (stages : StageMap) (commonSource : String) : Shader :=
  match stages.arrangeInputs? with
  | some (arranged, layout) => { stages := arranged, layout, commonSource }
  | none => { stages, commonSource }

/-- The outcome of a build whose text is scanned. -/
def Scanner.result (s : Scanner) : BuildResult :=
  match s.sections.parse s.warnings with
  | (warnings, .error e) => { error := some e, warnings }
  | (warnings, .ok stages) =>
      { shader := .ofStages stages (s.sources.getD .common ""), warnings }

/-- What is noticed while the stages are assembled comes behind the warnings of the scan. -/
theorem Scanner.result_warnings (s : Scanner)
    : s.result.warnings = s.warnings ++ s.sections.assemblyWarnings := by
  unfold result Sections.parse
  cases s.sections.assemble.validate <;> rfl

/-- Builds a shader from its text. -/
def build (limits : Limits) (text : String) : BuildResult :=
  match ({} : Scanner).scan limits text with
  | .error stopped =>
      { error := some (.overflow stopped.overflow), warnings := stopped.scanner.warnings }
  | .ok s => s.result

/-- Builds a shader from its text, where a failure is written as it occurs. A limit with too many
digits cannot be written: a scan that it stops leaves no outcome but what is said of that limit. -/
def writtenBuild (limits : Limits) (text : String) : Except String BuildResult :=
  match ({} : Scanner).scan limits text with
  | .error stopped => stopped.overflow.written.map fun _ => build limits text
  | .ok _ => .ok (build limits text)

end ShaderReflection
