import ShaderReflection.Vocabulary

/-! The sections of a shader text. -/

namespace ShaderReflection

/-- A named top-level section of a shader text. -/
inductive Section where
  | common
  | vertex
  | fragment
deriving DecidableEq, Repr, Inhabited

namespace Section

/-- The word that names a section. -/
def keyword : Section → String
  | common => "glsl_common"
  | vertex => "vertex"
  | fragment => "fragment"

/-- All sections. -/
def all : List Section :=
  [common, vertex, fragment]

/-- The section that a word names. -/
def ofKeyword? (word : String) : Option Section :=
  all.find? (·.keyword = word)

/-- The written form of a place outside all sections. -/
def outside : String := "none"

/-- Looks up the section with the given written form. Outside all sections there is none. -/
def ofName (name : String) : Except UnknownWord (Option Section) :=
  if name = outside then .ok none
  else (Vocabulary.sections.report name (ofKeyword? name)).map some

end Section

end ShaderReflection
