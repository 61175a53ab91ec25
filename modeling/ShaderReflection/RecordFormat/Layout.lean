import ShaderReflection.VertexLayout

/-! Record formats: a vertex layout as typed fields of a binary record. What makes a record type of
a format is not fixed here, it is a constructor that is given.
-/

namespace ShaderReflection

/-- The kind of the components of a field. Both take four bytes, the low byte first. -/
inductive ScalarFormat where
  | int32
  | float32
deriving DecidableEq, Repr

namespace ScalarFormat

/-- The written form: byte order, kind and size. -/
def code : ScalarFormat → String
  | int32 => "<i4"
  | float32 => "<f4"

/-- The kind of the components of a data type. -/
def ofType (type : DataType) : ScalarFormat :=
  if type.isInteger then int32 else float32

end ScalarFormat

/-- A field of a record. -/
structure RecordField where
  name : String
  scalar : ScalarFormat
  shape : List Nat
  offset : Int
deriving DecidableEq, Repr

namespace RecordField

/-- The field that holds an attribute. -/
def ofAttribute (a : Attribute) : RecordField where
  name := a.name
  scalar := .ofType a.type
  shape := a.type.shape
  offset := a.offset

/-- The bytes of a field: four for each component. -/
def bytes (field : RecordField) : Nat :=
  4 * field.shape.foldl (· * ·) 1

/-- Where a field ends. -/
def fieldEnd (field : RecordField) : Int :=
  field.offset + field.bytes

end RecordField

/-- The format of a record. -/
structure RecordFormat where
  size : Int
  fields : List RecordField
deriving DecidableEq, Repr

/-- Why a layout has no record type: it has no attributes, a name occurs twice in it, or the
constructor of record types has a reason of its own.
-/
inductive LayoutError (ε : Type) where
  | empty
  | duplicateName (name : String)
  | refused (cause : ε)
deriving DecidableEq, Repr

namespace LayoutError

/-- The wording of an error, given how the constructor words its own. -/
def wording {ε : Type} (word : ε → String) : LayoutError ε → String
  | empty => "Cannot build a vertex dtype from an empty layout"
  | duplicateName name => "Duplicate vertex attribute name '" ++ name ++ "' in layout"
  | refused cause => word cause

end LayoutError

namespace RecordFormat

/-- The first name that occurred before. -/
def repeatedName? (earlier : List String) : List String → Option String
  | [] => none
  | name :: rest =>
      if name ∈ earlier then some name else repeatedName? (name :: earlier) rest

end RecordFormat

namespace VertexLayout

/-- The format of the records of a layout: a field for each attribute, at its offset. -/
def format (layout : VertexLayout) : RecordFormat where
  size := layout.stride
  fields := layout.attributes.map RecordField.ofAttribute

/-- The record type of a layout. Record types are made by a constructor that is given. -/
def record {ε : Type} (construct : RecordFormat → Except ε RecordFormat) (layout : VertexLayout)
    : Except (LayoutError ε) RecordFormat :=
  if layout.attributes.isEmpty then .error .empty
  else
    match RecordFormat.repeatedName? [] (layout.attributes.map Attribute.name) with
    | some name => .error (.duplicateName name)
    | none => (construct layout.format).mapError .refused

end VertexLayout

end ShaderReflection
