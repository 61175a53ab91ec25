import ShaderReflection.StageKind
import ShaderReflection.Variable
import ShaderReflection.OrderedMap

/-! Pipeline stages. -/

namespace ShaderReflection

/-- A pipeline stage: its source and its interface. -/
structure Stage where
  kind : StageKind := .unspecified
  source : String := ""
  inputs : List Variable := []
  outputs : List Variable := []
  uniforms : List Variable := []
deriving DecidableEq, Repr, Inhabited

/-- Stages by kind. -/
abbrev StageMap := OrderedMap StageKind Stage

namespace Stage

/-- Stages in the order in which they run. Stages of one kind keep the order they had. -/
def inPipelineOrder (stages : List Stage) : List Stage :=
  stages.mergeSort fun s t => decide (s.kind.rank ≤ t.kind.rank)

end Stage

/-- The stages of a map with their kinds, in the order in which they run. -/
def StageMap.inPipelineOrder (stages : StageMap) : List (StageKind × Stage) :=
  stages.entries.mergeSort fun s t => decide (s.1.rank ≤ t.1.rank)

end ShaderReflection
