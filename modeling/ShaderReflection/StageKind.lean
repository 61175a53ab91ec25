import ShaderReflection.Section

/-! The kinds of pipeline stages, in the order in which the stages run. -/

namespace ShaderReflection

/-- A kind of pipeline stage. `unspecified` stands where no kind was given. -/
inductive StageKind where
  | unspecified
  | vertex
  | fragment
deriving DecidableEq, Repr, Inhabited

namespace StageKind

/-- The written form of a stage kind. -/
def name : StageKind → String
  | unspecified => "none"
  | vertex => "vertex"
  | fragment => "fragment"

/-- Position in the pipeline. -/
def rank : StageKind → Nat
  | unspecified => 0
  | vertex => 1
  | fragment => 2

/-- All stage kinds by rank. -/
def all : List StageKind :=
  [unspecified, vertex, fragment]

/-- The stage kind with the given written form. -/
def ofName? (name : String) : Option StageKind :=
  all.find? (·.name = name)

/-- The stages that a shader is made of, each with the section that holds it, in pipeline
order. -/
def pipeline : List (StageKind × Section) :=
  [(vertex, .vertex), (fragment, .fragment)]

end StageKind

end ShaderReflection
