import ShaderReflection.VertexLayout

/-! Shaders, the results of builds. -/

namespace ShaderReflection

/-- A shader. The one without stages is the result of a failed build. -/
structure Shader where
  stages : StageMap := ∅
  layout : VertexLayout := {}
  commonSource : String := ""
deriving DecidableEq, Inhabited

namespace Shader

/-- Whether the shader has no stages. -/
def isEmpty (shader : Shader) : Bool :=
  shader.stages.isEmpty

/-- Whether the shader has a stage of a kind. -/
def hasStage (shader : Shader) (kind : StageKind) : Bool :=
  shader.stages.contains kind

/-- The stage of a kind. -/
def stage? (shader : Shader) (kind : StageKind) : Option Stage :=
  shader.stages.get? kind

/-- What is said when a shader is asked for a stage that it does not have. -/
def missingStageMessage (kind : StageKind) : String :=
  "Shader has no " ++ kind.name ++ " stage"

end Shader

end ShaderReflection
