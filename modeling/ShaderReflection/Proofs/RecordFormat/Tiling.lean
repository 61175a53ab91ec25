import Mathlib.Data.List.Nodup
import ShaderReflection.RecordFormat

/-! Packed layouts as record formats. The fields of a packed layout tile the record: they follow
each other from its start to its end, so a constructor of record types can accept the format
whenever its size fits and no name occurs twice.
-/

namespace ShaderReflection

/-- A type takes the bytes of its components. -/
theorem DataType.bytes_shape {type : DataType} (typed : type ≠ .untyped)
    : 4 * type.shape.foldl (· * ·) 1 = type.size := by
  cases type with
  | untyped => exact absurd rfl typed
  | _ => rfl

-----------------------------------------------------------------------------------------
-- Fields one behind another
-----------------------------------------------------------------------------------------

/-- Fields that follow each other from a start to an end, without gap or overlap. -/
def RecordField.Tile : Int → List RecordField → Int → Prop
  | start, [], stop => start = stop
  | start, field :: rest, stop => field.offset = start ∧ Tile field.fieldEnd rest stop

/-- What a record format of a layout is: a field for each attribute in order, at its offset and of
its size, and the fields tile the record, which is as large as the stride.
-/
structure RecordFormat.Holds (format : RecordFormat) (layout : VertexLayout) : Prop where
  fields
    : List.Forall₂
        (fun field a =>
          field.name = a.name
          ∧ field.scalar = .ofType a.type
          ∧ field.shape = a.type.shape
          ∧ field.offset = a.offset
          ∧ (field.bytes : Int) = a.size)
        format.fields layout.attributes
  tiled : RecordField.Tile 0 format.fields format.size
  size : format.size = layout.stride

namespace RecordField

variable {fields : List RecordField} {start stop : Int}

theorem offset_le_fieldEnd (field : RecordField) : field.offset ≤ field.fieldEnd := by
  simp only [fieldEnd]
  omega

/-- Fields lie between the start and the end that they tile, by induction along them. -/
theorem Tile.bounds (tiled : Tile start fields stop)
    : start ≤ stop ∧ ∀ field ∈ fields, start ≤ field.offset ∧ field.fieldEnd ≤ stop := by
  induction fields generalizing start with
  | nil => exact ⟨Int.le_of_eq tiled, by simp⟩
  | cons field rest ih =>
      obtain ⟨rfl, later⟩ := tiled
      obtain ⟨order, between⟩ := ih later
      have forward := field.offset_le_fieldEnd
      refine ⟨Int.le_trans forward order, ?_⟩
      intro other member
      rcases List.mem_cons.mp member with rfl | behind
      · exact ⟨Int.le_refl _, order⟩
      · obtain ⟨low, high⟩ := between other behind
        exact ⟨Int.le_trans forward low, high⟩

end RecordField

namespace VertexLayout

variable {inputs : List Variable} {offset : Int}

/-- Packed variables tile the record from their offset on, by induction along them: each type takes
just the bytes of its components.
-/
theorem packFrom_tile (offset : Int) (typed : ∀ v ∈ inputs, v.type ≠ .untyped)
    : RecordField.Tile offset ((packFrom offset inputs).map RecordField.ofAttribute)
        (offset + stride { attributes := packFrom offset inputs }) := by
  induction inputs generalizing offset with
  | nil => exact (Int.add_zero offset).symm
  | cons v rest ih =>
      have bytes := DataType.bytes_shape (typed v List.mem_cons_self)
      have later := ih (offset + v.type.size) fun w member =>
        typed w (List.mem_cons_of_mem v member)
      rw [packFrom, stride_cons, ← Int.add_assoc]
      refine ⟨rfl, ?_⟩
      simp only [RecordField.fieldEnd, RecordField.ofAttribute, RecordField.bytes, bytes]
      exact later

theorem packFrom_sizes (typed : ∀ v ∈ inputs, v.type ≠ .untyped)
    : ∀ a ∈ packFrom offset inputs, (RecordField.ofAttribute a).bytes = a.size := by
  induction inputs generalizing offset with
  | nil => simp [packFrom]
  | cons v rest ih =>
      intro a member
      rcases List.mem_cons.mp member with rfl | later
      · exact congrArg Int.ofNat (DataType.bytes_shape (typed v List.mem_cons_self))
      · exact ih (fun w among => typed w (List.mem_cons_of_mem v among)) a later

end VertexLayout

-----------------------------------------------------------------------------------------
-- Which formats are accepted
-----------------------------------------------------------------------------------------

namespace RecordFormat

variable {fields : List RecordField} {size stop : Int}

/-- The largest size of a record. -/
def largestSize : Int := 2147483647

/-- A format that a constructor of record types accepts: no name occurs twice, the offsets and the
size are not negative and not too large, and every field ends within the size.
-/
structure Admissible (format : RecordFormat) : Prop where
  names : (format.fields.map RecordField.name).Nodup
  offsets : ∀ field ∈ format.fields, 0 ≤ field.offset ∧ field.offset ≤ largestSize
  size : 0 ≤ format.size ∧ format.size ≤ largestSize
  within : ∀ field ∈ format.fields, field.fieldEnd ≤ format.size

/-- A constructor makes a record type of every format that is admissible. -/
def Accepts {ε : Type} (construct : RecordFormat → Except ε RecordFormat) : Prop :=
  ∀ format : RecordFormat, format.Admissible → construct format = .ok format

/-- Fields that tile a record under different names are admissible if the record is not too large.
-/
theorem admissible_of_tile (tiled : RecordField.Tile 0 fields size) (high : size ≤ largestSize)
    (distinct : (fields.map RecordField.name).Nodup)
    : Admissible { size, fields } := by
  obtain ⟨low, between⟩ := tiled.bounds
  refine ⟨distinct, ?_, ⟨low, high⟩, fun field member => (between field member).2⟩
  intro field member
  obtain ⟨start, ends⟩ := between field member
  have forward := field.offset_le_fieldEnd
  exact ⟨start, Int.le_trans forward (Int.le_trans ends high)⟩

theorem fits_of_bounds {n : Int} (low : 0 ≤ n) (high : n ≤ largestSize)
    : SignedWord.fits sizeBits n ∧ SignedWord.fits wordBits n := by
  have sizes : SignedWord.count sizeBits = 4294967296 := rfl
  have words : SignedWord.count wordBits = 18446744073709551616 := rfl
  simp only [largestSize] at high
  simp only [SignedWord.fits, sizes, words, Bool.and_eq_true, decide_eq_true_eq]
  omega

theorem widthError?_eq_none {n : Int} (low : 0 ≤ n) (high : n ≤ largestSize)
    : widthError? n = none := by
  obtain ⟨size, word⟩ := fits_of_bounds low high
  simp [widthError?, size, word]

/-- Fields that end within a size that fits need no larger record, by induction along them. -/
theorem requiredSize_le (high : stop ≤ largestSize) (start : size ≤ stop)
    (within : ∀ field ∈ fields, 0 ≤ field.offset ∧ field.fieldEnd ≤ stop)
    : fields.foldl extendSize size ≤ stop := by
  induction fields generalizing size with
  | nil => exact start
  | cons field rest ih =>
      obtain ⟨low, ends⟩ := within field List.mem_cons_self
      have forward := field.offset_le_fieldEnd
      obtain ⟨fits, _⟩ := fits_of_bounds (Int.le_trans low forward) (Int.le_trans ends high)
      refine ih ?_ fun other member => within other (List.mem_cons_of_mem field member)
      rw [extendSize, SignedWord.wrap_of_fits fits]
      split
      · exact ends
      · exact start

/-- The constructor with sizes of a fixed width makes a record type of every admissible format. -/
theorem accepts_construct : Accepts construct := by
  intro format admissible
  obtain ⟨low, high⟩ := admissible.size
  have offsets : format.fields.findSome? offsetError? = none := by
    rw [List.findSome?_eq_none_iff]
    intro field member
    obtain ⟨start, bound⟩ := admissible.offsets field member
    simp only [offsetError?, widthError?_eq_none start bound, ite_eq_right_iff, reduceCtorEq]
    omega
  have required : requiredSize format.fields ≤ format.size :=
    requiredSize_le high low fun field member =>
      ⟨(admissible.offsets field member).1, admissible.within field member⟩
  simp only [construct, offsets, widthError?_eq_none low high]
  rw [if_neg (by omega)]

-----------------------------------------------------------------------------------------
-- Which layouts have a record type
-----------------------------------------------------------------------------------------

/-- No name is found to occur twice exactly if none does, by induction along the names. -/
theorem repeatedName?_eq_none_iff {earlier names : List String}
    : repeatedName? earlier names = none ↔ names.Nodup ∧ ∀ name ∈ names, name ∉ earlier := by
  induction names generalizing earlier with
  | nil => simp [repeatedName?]
  | cons name rest ih =>
      rw [repeatedName?]
      split
      · next known => simp [known]
      · next fresh =>
          rw [ih, List.nodup_cons]
          constructor
          · rintro ⟨distinct, apart⟩
            refine ⟨⟨fun again => apart name again List.mem_cons_self, distinct⟩, ?_⟩
            intro other member
            rcases List.mem_cons.mp member with rfl | later
            · exact fresh
            · exact fun known => apart other later (List.mem_cons_of_mem name known)
          · rintro ⟨⟨once, distinct⟩, apart⟩
            refine ⟨distinct, ?_⟩
            intro other later known
            rcases List.mem_cons.mp known with rfl | old
            · exact once later
            · exact apart other (List.mem_cons_of_mem name later) old

end RecordFormat

namespace VertexLayout

open RecordFormat

variable {ε : Type} {construct : RecordFormat → Except ε RecordFormat} {inputs : List Variable}

/-- Two attributes of one name keep a layout from having a record type, whatever makes record types.
-/
theorem record_repeated {layout : VertexLayout}
    (repeated : ¬(layout.attributes.map Attribute.name).Nodup)
    : ∃ name, layout.record construct = .error (.duplicateName name) := by
  have nonempty : layout.attributes.isEmpty = false := by
    cases attributes : layout.attributes with
    | nil => simp [attributes] at repeated
    | cons a rest => rfl
  rw [record, nonempty]
  cases found : repeatedName? [] (layout.attributes.map Attribute.name) with
  | none => exact absurd (repeatedName?_eq_none_iff.mp found).1 repeated
  | some name => exact ⟨name, rfl⟩

/-- Packed variables with types and different names have a record type if admissible formats have
one, and it holds them.
-/
theorem record_pack_distinct (accepts : Accepts construct) (some : inputs ≠ [])
    (typed : ∀ v ∈ inputs, v.type ≠ .untyped) (high : (pack inputs).stride ≤ largestSize)
    (distinct : ((pack inputs).attributes.map Attribute.name).Nodup)
    : ∃ format, (pack inputs).record construct = .ok format ∧ format.Holds (pack inputs) := by
  have nonempty : (pack inputs).attributes.isEmpty = false := by
    cases inputs with
    | nil => exact absurd rfl some
    | cons v rest => rfl
  have unrepeated := repeatedName?_eq_none_iff.mpr ⟨distinct, fun _ _ => List.not_mem_nil⟩
  have tiled := packFrom_tile 0 typed
  rw [Int.zero_add] at tiled
  have names : ((pack inputs).format.fields.map RecordField.name).Nodup := by
    rw [format, List.map_map]
    exact distinct
  have accepted : construct (pack inputs).format = .ok (pack inputs).format :=
    accepts _ (admissible_of_tile tiled high names)
  refine ⟨(pack inputs).format, ?_, ?_, tiled, rfl⟩
  · rw [record, nonempty, unrepeated]
    simp only [Bool.false_eq_true, if_false, accepted]
    rfl
  · rw [format, List.forall₂_map_left_iff, List.forall₂_same]
    intro a member
    exact ⟨rfl, rfl, rfl, rfl, packFrom_sizes typed a member⟩

end VertexLayout

end ShaderReflection
