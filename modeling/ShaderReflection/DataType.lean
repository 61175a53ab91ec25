import ShaderReflection.Vocabulary

/-! The data types of interface variables: their keywords, sizes and component shapes. -/

namespace ShaderReflection

/-- A data type of a variable. `untyped` stands where no type was given. -/
inductive DataType where
  | untyped
  | mat2
  | mat3
  | mat4
  | vec2
  | vec3
  | vec4
  | int
  | float
  | sampler2D
deriving DecidableEq, Repr, Inhabited

namespace DataType

/-- The written form of a type. -/
def keyword : DataType → String
  | untyped => "none"
  | mat2 => "mat2"
  | mat3 => "mat3"
  | mat4 => "mat4"
  | vec2 => "vec2"
  | vec3 => "vec3"
  | vec4 => "vec4"
  | int => "int"
  | float => "float"
  | sampler2D => "sampler2D"

/-- The types that a declaration can name. -/
def declarable : List DataType :=
  [mat2, mat3, mat4, vec2, vec3, vec4, int, float, sampler2D]

/-- The type that a word of a declaration names. -/
def ofKeyword? (word : String) : Option DataType :=
  declarable.find? (·.keyword = word)

/-- The type with the given written form, the missing type included. -/
def ofName? (name : String) : Option DataType :=
  (untyped :: declarable).find? (·.keyword = name)

/-- Looks up the type with the given written form. -/
def ofName (name : String) : Except UnknownWord DataType :=
  Vocabulary.dataTypes.report name (ofName? name)

/-- Components along each dimension: none for a scalar, one number for a vector, two for a
matrix. -/
def shape : DataType → List Nat
  | mat2 => [2, 2]
  | mat3 => [3, 3]
  | mat4 => [4, 4]
  | vec2 => [2]
  | vec3 => [3]
  | vec4 => [4]
  | _ => []

/-- Bytes of one value in a tightly packed vertex record. A sampler takes one slot of four. -/
def size : DataType → Nat
  | untyped => 0
  | mat2 => 16
  | mat3 => 36
  | mat4 => 64
  | vec2 => 8
  | vec3 => 12
  | vec4 => 16
  | int => 4
  | float => 4
  | sampler2D => 4

/-- Whether the components are integers. -/
def isInteger : DataType → Bool
  | int => true
  | sampler2D => true
  | _ => false

end DataType

end ShaderReflection
