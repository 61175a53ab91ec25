import Mathlib.Tactic.Common
import ShaderReflection.Text.Utf8

/-! Strict UTF-8 reads back what the encoding of a text writes. Each of the four lengths of an
encoded character has a branch of the decoder to itself.
-/

namespace ShaderReflection.Text

variable {position v : Nat} {done : Array Char} {a b c d : UInt8} {rest : List UInt8}

-----------------------------------------------------------------------------------------
-- The branches of the decoder, by the range of the leading byte
-----------------------------------------------------------------------------------------

theorem decodeFrom_one (high : a.toNat < 0x80)
    : decodeFrom position done (a :: rest)
      = decodeFrom (position + 1) (done.push (Char.ofNat a.toNat)) rest := by
  have ascii : a < 0x80 := UInt8.lt_iff_toNat_lt.mpr high
  rw [decodeFrom.eq_def]
  simp only [ascii, if_true]

/-- A leading byte of several is neither ASCII nor refused. -/
theorem not_refused (low : 0xC2 ≤ a.toNat) (high : a.toNat < 0xF5)
    : ¬ a < 0x80 ∧ (a < 0xC2 || 0xF5 ≤ a) = false := by
  simp only [UInt8.lt_iff_toNat_lt, UInt8.le_iff_toNat_le, UInt8.reduceToNat, Bool.or_eq_false_iff,
    decide_eq_false_iff_not]
  omega

theorem decodeFrom_two (low : 0xC2 ≤ a.toNat) (high : a.toNat < 0xE0)
    (second : isSecondByte a b)
    : decodeFrom position done (a :: b :: rest)
      = decodeFrom (position + 2) (done.push (Char.ofNat (codePoint (a.toNat % 32) [b])))
          rest := by
  obtain ⟨first, start⟩ := not_refused low (by omega)
  have short : a < 0xE0 := UInt8.lt_iff_toNat_lt.mpr high
  rw [decodeFrom.eq_def]
  simp only [first, start, second, short, if_false, if_true, Bool.false_eq_true, Bool.not_true]

theorem decodeFrom_three (low : 0xE0 ≤ a.toNat) (high : a.toNat < 0xF0)
    (second : isSecondByte a b) (third : isTrailByte c)
    : decodeFrom position done (a :: b :: c :: rest)
      = decodeFrom (position + 3) (done.push (Char.ofNat (codePoint (a.toNat % 16) [b, c])))
          rest := by
  obtain ⟨first, start⟩ := not_refused (by omega : 0xC2 ≤ a.toNat) (by omega)
  have long : ¬ a < 0xE0 := UInt8.not_lt.mpr (UInt8.le_iff_toNat_le.mpr low)
  have short : a < 0xF0 := UInt8.lt_iff_toNat_lt.mpr high
  rw [decodeFrom.eq_def]
  simp only [first, start, second, third, long, short, if_false, if_true, Bool.false_eq_true,
    Bool.not_true]

theorem decodeFrom_four (low : 0xF0 ≤ a.toNat) (high : a.toNat < 0xF5)
    (second : isSecondByte a b) (third : isTrailByte c) (fourth : isTrailByte d)
    : decodeFrom position done (a :: b :: c :: d :: rest)
      = decodeFrom (position + 4) (done.push (Char.ofNat (codePoint (a.toNat % 8) [b, c, d])))
          rest := by
  obtain ⟨first, start⟩ := not_refused (by omega : 0xC2 ≤ a.toNat) high
  have longer : ¬ a < 0xF0 := UInt8.not_lt.mpr (UInt8.le_iff_toNat_le.mpr low)
  have long : ¬ a < 0xE0 := by
    intro short
    exact longer (UInt8.lt_trans short (by decide))
  rw [decodeFrom.eq_def]
  simp only [first, start, second, third, fourth, long, longer, if_false, Bool.false_eq_true,
    Bool.not_true]

-----------------------------------------------------------------------------------------
-- The bytes of an encoded character
-----------------------------------------------------------------------------------------

theorem toNat_byte (small : v < 256) : (UInt8.ofNat v).toNat = v :=
  UInt8.toNat_ofNat_of_lt' small

/-- Six bits behind the mark of a trail byte are one. -/
theorem isTrailByte_ofNat (v : Nat) (six : v < 64) : isTrailByte (UInt8.ofNat (v + 128)) := by
  simp only [isTrailByte, UInt8.le_iff_toNat_le, toNat_byte (by omega : v + 128 < 256),
    UInt8.reduceToNat, Bool.and_eq_true, decide_eq_true_eq]
  omega

/-- Six bits behind the mark of a trail byte may follow a leading byte, but for the overlong forms
of three and of four bytes, the surrogates and the numbers above the last code point.
-/
theorem isSecondByte_ofNat (lead v : Nat) (byte : lead < 256) (six : v < 64)
    (overlongThree : lead = 0xE0 → 32 ≤ v) (surrogate : lead = 0xED → v < 32)
    (overlongFour : lead = 0xF0 → 16 ≤ v) (last : lead = 0xF4 → v < 16)
    : isSecondByte (UInt8.ofNat lead) (UInt8.ofNat (v + 128)) := by
  simp only [isSecondByte, ← UInt8.toNat_inj, toNat_byte byte, UInt8.reduceToNat, Bool.and_eq_true,
    decide_eq_true_eq, UInt8.le_iff_toNat_le, toNat_byte (by omega : v + 128 < 256),
    apply_ite UInt8.toNat]
  refine ⟨?_, ?_⟩ <;> split_ifs <;> omega

/-- The number that is spread over bytes is put together again. -/
theorem codePoint_ofNat (leadBits : Nat) (six : v < 64) (trail : List UInt8)
    : codePoint leadBits (UInt8.ofNat (v + 128) :: trail)
      = codePoint (64 * leadBits + v) trail := by
  have low : (UInt8.ofNat (v + 128)).toNat % 64 = v := by
    rw [toNat_byte (by omega)]
    omega
  simp only [codePoint, List.foldl_cons, low]

theorem decodeFrom_ofNat_two (low : 0x80 ≤ v) (high : v < 0x800)
    : decodeFrom position done
        (UInt8.ofNat (v / 64 % 32 + 192) :: UInt8.ofNat (v % 64 + 128) :: rest)
      = decodeFrom (position + 2) (done.push (Char.ofNat v)) rest := by
  have lead : (UInt8.ofNat (v / 64 % 32 + 192)).toNat = v / 64 % 32 + 192 :=
    toNat_byte (by omega)
  have second := isSecondByte_ofNat (v / 64 % 32 + 192) (v % 64)
    (by omega) (by omega) (by omega) (by omega) (by omega) (by omega)
  rw [decodeFrom_two (by omega) (by omega) second, lead, codePoint_ofNat _ (by omega)]
  congr 3
  simp only [codePoint, List.foldl_nil]
  omega

theorem decodeFrom_ofNat_three (low : 0x800 ≤ v) (high : v < 0x10000)
    (valid : v < 0xD800 ∨ 0xDFFF < v)
    : decodeFrom position done
        (UInt8.ofNat (v / 4096 % 16 + 224) :: UInt8.ofNat (v / 64 % 64 + 128)
          :: UInt8.ofNat (v % 64 + 128) :: rest)
      = decodeFrom (position + 3) (done.push (Char.ofNat v)) rest := by
  have lead : (UInt8.ofNat (v / 4096 % 16 + 224)).toNat = v / 4096 % 16 + 224 :=
    toNat_byte (by omega)
  have second := isSecondByte_ofNat (v / 4096 % 16 + 224) (v / 64 % 64)
    (by omega) (by omega) (by omega) (by omega) (by omega) (by omega)
  have third := isTrailByte_ofNat (v % 64) (by omega)
  rw [decodeFrom_three (by omega) (by omega) second third, lead, codePoint_ofNat _ (by omega),
    codePoint_ofNat _ (by omega)]
  congr 3
  simp only [codePoint, List.foldl_nil]
  omega

theorem decodeFrom_ofNat_four (low : 0x10000 ≤ v) (high : v < 0x110000)
    : decodeFrom position done
        (UInt8.ofNat (v / 262144 % 8 + 240) :: UInt8.ofNat (v / 4096 % 64 + 128)
          :: UInt8.ofNat (v / 64 % 64 + 128) :: UInt8.ofNat (v % 64 + 128) :: rest)
      = decodeFrom (position + 4) (done.push (Char.ofNat v)) rest := by
  have lead : (UInt8.ofNat (v / 262144 % 8 + 240)).toNat = v / 262144 % 8 + 240 :=
    toNat_byte (by omega)
  have second := isSecondByte_ofNat (v / 262144 % 8 + 240) (v / 4096 % 64)
    (by omega) (by omega) (by omega) (by omega) (by omega) (by omega)
  have third := isTrailByte_ofNat (v / 64 % 64) (by omega)
  have fourth := isTrailByte_ofNat (v % 64) (by omega)
  rw [decodeFrom_four (by omega) (by omega) second third fourth, lead,
    codePoint_ofNat _ (by omega), codePoint_ofNat _ (by omega), codePoint_ofNat _ (by omega)]
  congr 3
  simp only [codePoint, List.foldl_nil]
  omega

-----------------------------------------------------------------------------------------
-- Characters and texts
-----------------------------------------------------------------------------------------

/-- An encoded character is read back, by cases on the number of its bytes. -/
theorem decodeFrom_encodeChar (character : Char)
    : decodeFrom position done (String.utf8EncodeChar character ++ rest)
      = decodeFrom (position + (String.utf8EncodeChar character).length) (done.push character)
          rest := by
  have valid : character.val.toNat < 0xD800
      ∨ 0xDFFF < character.val.toNat ∧ character.val.toNat < 0x110000 := character.valid
  have back : Char.ofNat character.val.toNat = character := Char.ofNat_toNat character
  unfold String.utf8EncodeChar
  generalize character.val.toNat = v at valid back
  simp only
  split
  · have ascii : (UInt8.ofNat v).toNat = v := toNat_byte (by omega)
    rw [List.singleton_append, decodeFrom_one (by omega), ascii, back, List.length_singleton]
  · split
    · rw [List.cons_append, List.singleton_append, decodeFrom_ofNat_two (by omega) (by omega), back]
      rfl
    · split
      · rw [List.cons_append, List.cons_append, List.singleton_append,
          decodeFrom_ofNat_three (by omega) (by omega) (by omega), back]
        rfl
      · rw [List.cons_append, List.cons_append, List.cons_append, List.singleton_append,
          decodeFrom_ofNat_four (by omega) (by omega), back]
        rfl

/-- An encoded text is read back behind what was read before, by induction along the text. -/
theorem decodeFrom_flatMap (position : Nat) (done : Array Char) (cs : List Char)
    : decodeFrom position done (cs.flatMap String.utf8EncodeChar) = .ok (done ++ cs) := by
  induction cs generalizing position done with
  | nil => simp [decodeFrom]
  | cons c rest ih =>
      rw [List.flatMap_cons, decodeFrom_encodeChar, ih]
      simp

/-- The bytes of a text are those of its characters. -/
theorem toUTF8_eq_flatMap (text : String)
    : text.toUTF8.data.toList = text.toList.flatMap String.utf8EncodeChar := by
  rw [String.toUTF8, ← String.utf8Encode_toList, List.utf8Encode, List.data_toByteArray]

/-- Decoding the bytes of a text yields its characters. -/
theorem decodeUtf8_toUTF8 (text : String)
    : decodeUtf8 text.toUTF8.data.toList = .ok text.toList := by
  rw [decodeUtf8, toUTF8_eq_flatMap, decodeFrom_flatMap]
  simp [Except.map]

end ShaderReflection.Text
