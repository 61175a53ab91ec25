import ShaderReflection.SignedWord
import ShaderReflection.Stage

/-! The layout of a vertex record: the inputs of the vertex stage, packed one behind another. -/

namespace ShaderReflection

/-- An attribute of a vertex record. Size and offset are in bytes. -/
structure Attribute where
  name : String
  type : DataType := .untyped
  size : Int := 0
  offset : Int := 0
  location : Int := unlocated
deriving DecidableEq, Repr

/-- Why there is no attribute at an index. -/
inductive NoAttribute where
  /-- The layout has fewer attributes. -/
  | outOfRange
  /-- The index is too large to count attributes with. -/
  | notAnIndex
deriving DecidableEq, Repr

namespace NoAttribute

/-- The wording of a failed access. -/
def message : NoAttribute → String
  | outOfRange => "tuple index out of range"
  | notAnIndex => "cannot fit 'int' into an index-sized integer"

end NoAttribute

/-- The layout of a vertex record. -/
structure VertexLayout where
  attributes : List Attribute := []
deriving DecidableEq, Repr, Inhabited

namespace VertexLayout

/-- The size of a vertex record: the sizes of its attributes together. -/
def stride (layout : VertexLayout) : Int :=
  layout.attributes.foldr (fun a total => a.size + total) 0

theorem stride_cons (a : Attribute) (rest : List Attribute)
    : stride { attributes := a :: rest } = a.size + stride { attributes := rest } :=
  rfl

/-- The attribute at an index. A negative index counts from the end. -/
def attribute? (layout : VertexLayout) (index : Int) : Option Attribute :=
  let position := if index < 0 then index + layout.attributes.length else index
  if position < 0 then none else layout.attributes[position.toNat]?

/-- The width of an index. -/
def indexBits : Nat := 64

/-- The attribute at an index, or why there is none. -/
def attributeAt (layout : VertexLayout) (index : Int) : Except NoAttribute Attribute :=
  if !SignedWord.fits indexBits index then .error .notAnIndex
  else match layout.attribute? index with
    | some a => .ok a
    | none => .error .outOfRange

/-- The attributes of variables that are packed from an offset on. -/
def packFrom (offset : Int) : List Variable → List Attribute
  | [] => []
  | v :: rest =>
      { name := v.name, type := v.type, size := v.type.size, offset, location := v.location }
        :: packFrom (offset + v.type.size) rest

/-- Variables in the given order, without gaps. -/
def pack (inputs : List Variable) : VertexLayout :=
  { attributes := packFrom 0 inputs }

end VertexLayout

/-- Puts the inputs of the vertex stage in the order of the vertex record, and gives the layout of
that record. There is none without a vertex stage. -/
def StageMap.arrangeInputs? (stages : StageMap) : Option (StageMap × VertexLayout) :=
  (stages.get? .vertex).map fun vertex =>
    let inputs := Variable.arrange vertex.inputs
    (stages.insert .vertex { vertex with inputs }, .pack inputs)

end ShaderReflection
