import ShaderReflection.RecordFormat.Layout
import ShaderReflection.SignedWord

/-! A constructor of record types with sizes of a fixed width, and the record types of vertex
layouts that it makes.
-/

namespace ShaderReflection

/-- Why a format makes no record type. -/
inductive FormatError where
  /-- An offset or the size does not even fit in a machine word. -/
  | tooLarge
  /-- An offset or the size does not fit in the width that records have for them. -/
  | outOfRange
  | negativeOffset (offset : Int)
  | tooSmall (required size : Int)
deriving DecidableEq, Repr

namespace FormatError

/-- The wording of an error. -/
def message : FormatError → String
  | tooLarge => "Python int too large to convert to C long"
  | outOfRange => "integer won't fit into a C int"
  | negativeOffset offset => "offset " ++ toString offset ++ " cannot be negative"
  | tooSmall required size =>
      "NumPy dtype descriptor requires " ++ toString required
        ++ " bytes, cannot override to smaller itemsize of " ++ toString size

end FormatError

/-- Why a layout has no record type of this constructor. -/
abbrev RecordError := LayoutError FormatError

namespace RecordError

/-- An offset or the size is too large for a machine word. -/
@[match_pattern]
def tooLarge : RecordError :=
  .refused .tooLarge

/-- The wording of an error. -/
def message (e : RecordError) : String :=
  e.wording FormatError.message

end RecordError

namespace RecordFormat

/-- The width of a machine word. -/
def wordBits : Nat := 64

/-- The width in which a record holds its offsets and its size. -/
def sizeBits : Nat := 32

/-- What is wrong with the width of an offset or a size. -/
def widthError? (n : Int) : Option FormatError :=
  if !SignedWord.fits wordBits n then some .tooLarge
  else if !SignedWord.fits sizeBits n then some .outOfRange
  else none

/-- What is wrong with the offset of a field. -/
def offsetError? (field : RecordField) : Option FormatError :=
  match widthError? field.offset with
  | some e => some e
  | none => if field.offset < 0 then some (.negativeOffset field.offset) else none

/-- The size that a record needs for a further field: up to the end of that field, if the record
was smaller. An end beyond the width of a size wraps around. -/
def extendSize (size : Int) (field : RecordField) : Int :=
  if size < field.fieldEnd then SignedWord.wrap sizeBits field.fieldEnd else size

/-- The size that a record with these fields has at least. -/
def requiredSize (fields : List RecordField) : Int :=
  fields.foldl extendSize 0

/-- The record type of a format. Its fields may overlap and stand in any order. -/
def construct (format : RecordFormat) : Except FormatError RecordFormat :=
  match format.fields.findSome? offsetError? with
  | some e => .error e
  | none =>
      match widthError? format.size with
      | some e => .error e
      | none =>
          if format.size < requiredSize format.fields then
            .error (.tooSmall (requiredSize format.fields) format.size)
          else .ok format

/-- The record type of a vertex layout. -/
def ofLayout (layout : VertexLayout) : Except RecordError RecordFormat :=
  layout.record construct

end RecordFormat

end ShaderReflection
