import ShaderReflection.Json.Write
import ShaderReflection.Shader

/-! Reflection documents: what a renderer has to know of a shader. -/

namespace ShaderReflection

/-- The format of a vertex attribute, for types that fit in a single one. -/
def DataType.attributeFormat? : DataType → Option String
  | float => some "R32_SFLOAT"
  | vec2 => some "R32G32_SFLOAT"
  | vec3 => some "R32G32B32_SFLOAT"
  | vec4 => some "R32G32B32A32_SFLOAT"
  | int => some "R32_SINT"
  | _ => none

/-- A variable of an interface. -/
def Variable.reflect (v : Variable) : Json.Value :=
  .object [
    ("name", .string v.name),
    ("type", .string v.type.keyword),
    ("location", .int v.location),
    ("flat", .bool v.flat)]

/-- A stage, with its source if that is wanted. -/
def Stage.reflect (includeSource : Bool) (stage : Stage) : Json.Value :=
  .object ((if includeSource then [("source", .string stage.source)] else []) ++ [
    ("inputs", .array (stage.inputs.map Variable.reflect)),
    ("outputs", .array (stage.outputs.map Variable.reflect)),
    ("uniforms", .array (stage.uniforms.map Variable.reflect))])

/-- An attribute of the vertex record. -/
def Attribute.reflect (a : Attribute) : Json.Value :=
  .object [
    ("name", .string a.name),
    ("type", .string a.type.keyword),
    ("location", .int a.location),
    ("format", match a.type.attributeFormat? with
      | some format => .string format
      | none => .null),
    ("offset", .int a.offset),
    ("size", .int a.size)]

namespace Shader

/-- The version of the reflection format. -/
def reflectionVersion : Int := 1

/-- The reflection document of a shader. Stages stand in pipeline order. -/
def reflect (shader : Shader) (sourceName : String) (includeSource : Bool) : Json.Value :=
  .object [
    ("version", .int reflectionVersion),
    ("source", .string sourceName),
    ("stages", .object (shader.stages.inPipelineOrder.map fun (kind, stage) =>
      (kind.name, stage.reflect includeSource))),
    ("vertex_attributes", .array (shader.layout.attributes.map Attribute.reflect)),
    ("vertex_stride", .int shader.layout.stride)]

/-- The text of the reflection document. -/
def reflectionText (shader : Shader) (sourceName : String) (includeSource : Bool) : String :=
  Json.text (shader.reflect sourceName includeSource)

/-- Writes the reflection document of any shader, unless an integer in it is too long. Those of a
built shader never are. -/
def reflectionText? (shader : Shader) (sourceName : String) (includeSource : Bool)
    : Option String :=
  if Json.isWritable (shader.reflect sourceName includeSource) then
    some (shader.reflectionText sourceName includeSource)
  else none

end Shader

end ShaderReflection
