import ShaderReflection.BuildError
import ShaderReflection.Declaration
import ShaderReflection.Stage
import ShaderReflection.Text.Integer
import ShaderReflection.Warning

/-! Stages from the declarations of their sections. -/

namespace ShaderReflection

/-- The part of an interface that a variable belongs to. -/
inductive Role where
  | input
  | output
  | uniform
deriving DecidableEq, Repr

namespace Declaration

/-- The role that the qualifiers give. The first of input, output and uniform counts. -/
def role? (d : Declaration) : Option Role :=
  if d.has .input then some .input
  else if d.has .output then some .output
  else if d.has .uniform then some .uniform
  else none

/-- The location as it is written. It is empty if there is none. -/
def locationText (d : Declaration) : String :=
  d.parameter .layout "location"

/-- Whether a location is written that is no integer. -/
def hasInvalidLocation (d : Declaration) : Bool :=
  d.locationText ≠ "" && (Text.integer? d.locationText).isNone

/-- The location. One that is missing or no integer counts as not set. -/
def location (d : Declaration) : Int :=
  (Text.integer? d.locationText).getD unlocated

/-- The variable that is declared. -/
def toVariable (d : Declaration) : Variable :=
  { name := d.name, type := d.type, flat := d.has .flat, location := d.location }

/-- The variables among some declarations that have a role. -/
def variablesOf (role : Role) (declarations : List Declaration) : List Variable :=
  (declarations.filter fun d => d.role? = some role).map Declaration.toVariable

/-- What is noticed at a declaration of a stage, given the names declared before it. -/
def interfaceWarnings (stage : StageKind) (earlier : List String) (d : Declaration)
    : List Warning :=
  (if d.hasInvalidLocation then [.invalidLocation d.locationText d.name stage] else [])
    ++ if d.name ≠ "" ∧ d.name ∈ earlier then [.duplicateName d.name stage] else []

end Declaration

namespace Stage

/-- The stage that a section declares. -/
def assemble (kind : StageKind) (source : String) (declarations : List Declaration) : Stage where
  kind := kind
  source := source
  inputs := Declaration.variablesOf .input declarations
  outputs := Declaration.variablesOf .output declarations
  uniforms := Declaration.variablesOf .uniform declarations

/-- What is noticed at the declarations of a stage, given the names declared before them. -/
def assemblyWarnings (kind : StageKind) (earlier : List String)
    : List Declaration → List Warning
  | [] => []
  | d :: rest =>
      d.interfaceWarnings kind earlier ++ assemblyWarnings kind (d.name :: earlier) rest

end Stage

/-- The sections of a shader text: the sources of those that were closed and the declarations of
those that were entered. -/
structure Sections where
  sources : OrderedMap Section String := ∅
  declarations : OrderedMap Section (List Declaration) := ∅
deriving DecidableEq

namespace Sections

/-- The pipeline stages whose sections have a source, with that source and the declarations. -/
def stages (sections : Sections) : List (StageKind × String × List Declaration) :=
  StageKind.pipeline.filterMap fun (kind, name) =>
    (sections.sources.get? name).map fun source =>
      (kind, source, sections.declarations.getD name [])

/-- The stages of the shader. -/
def assemble (sections : Sections) : StageMap :=
  .ofList (sections.stages.map fun (kind, source, declarations) =>
    (kind, Stage.assemble kind source declarations))

/-- What is noticed while the stages are assembled. -/
def assemblyWarnings (sections : Sections) : List Warning :=
  sections.stages.flatMap fun (kind, _, declarations) =>
    Stage.assemblyWarnings kind [] declarations

end Sections

namespace StageMap

/-- What a shader with these stages lacks: a vertex stage with inputs comes first, then a fragment
stage with outputs. -/
def fault? (stages : StageMap) : Option BuildError :=
  match stages.get? .vertex with
  | none => some .missingVertexStage
  | some vertex =>
      if vertex.inputs.isEmpty then some .noVertexInputs
      else match stages.get? .fragment with
        | none => some .missingFragmentStage
        | some fragment =>
            if fragment.outputs.isEmpty then some .noFragmentOutputs else none

/-- The stages, if nothing is lacking. -/
def validate (stages : StageMap) : Except BuildError StageMap :=
  match stages.fault? with
  | some e => .error e
  | none => .ok stages

end StageMap

/-- Assembles and validates the stages of a shader. The warnings follow those that were given
before, whether the stages are valid or not. -/
def Sections.parse (sections : Sections) (earlier : Array Warning)
    : Array Warning × Except BuildError StageMap :=
  (earlier ++ sections.assemblyWarnings, sections.assemble.validate)

end ShaderReflection
