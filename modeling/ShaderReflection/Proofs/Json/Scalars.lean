import ShaderReflection.Json.Write
import ShaderReflection.Proofs.Json.Decode
import ShaderReflection.Proofs.Text.DecimalRoundTrip

/-! Strings and integers are read back from the text that is written for them. A string is written
in ASCII, with escapes for all other characters.
-/

namespace ShaderReflection.Json

open Text

-----------------------------------------------------------------------------------------
-- Characters and strings
-----------------------------------------------------------------------------------------

theorem hexNumber?_append (n : Nat) (cs ds : List Char)
    : hexNumber? n (cs ++ ds) = (hexNumber? n cs).bind fun m => hexNumber? m ds := by
  induction cs generalizing n with
  | nil => rfl
  | cons c rest ih =>
      simp only [List.cons_append, hexNumber?]
      cases hexValue? c with
      | none => rfl
      | some digit => exact ih _

theorem hexValue?_digitChar : ∀ digit < 16, hexValue? (Nat.digitChar digit) = some digit := by
  decide

/-- Hexadecimal digits denote the number that they are written for, by induction along them. -/
theorem hexNumber?_toDigits (n : Nat) : hexNumber? 0 (Nat.toDigits 16 n) = some n := by
  induction n using Nat.strongRecOn with
  | ind n ih =>
      by_cases single : n < 16
      · simp [Nat.toDigits_of_lt_base single, hexNumber?, hexValue?_digitChar n single]
      · have last := hexValue?_digitChar (n % 16) (Nat.mod_lt n (by omega))
        rw [Nat.toDigits_of_base_le (by omega) (by omega), hexNumber?_append, ih (n / 16) (by omega)]
        simp only [Option.bind_some, hexNumber?, last, Option.some.injEq]
        omega

theorem hexNumber?_zeros (count : Nat) (cs : List Char)
    : hexNumber? 0 (List.replicate count '0' ++ cs) = hexNumber? 0 cs := by
  induction count with
  | zero => rfl
  | succ count ih =>
      rw [List.replicate_succ, List.cons_append, hexNumber?]
      exact ih

/-- A sixteen-bit unit is written with four digits, which denote it. -/
theorem exists_unitEscape {n : Nat} (small : n < 0x10000)
    : ∃ h₁ h₂ h₃ h₄,
        unitEscape n = ['\\', 'u', h₁, h₂, h₃, h₄] ∧ hexNumber? 0 [h₁, h₂, h₃, h₄] = some n := by
  have short : (Nat.toDigits 16 n).length ≤ 4 :=
    (Nat.length_toDigits_le_iff (by omega) (by omega)).mpr small
  have four : (hexadecimal 4 n).length = 4 := by
    simp only [hexadecimal, List.length_append, List.length_replicate]
    omega
  have value : hexNumber? 0 (hexadecimal 4 n) = some n := by
    rw [hexadecimal, hexNumber?_zeros, hexNumber?_toDigits]
  match digits : hexadecimal 4 n, four with
  | [h₁, h₂, h₃, h₄], _ =>
      exact ⟨h₁, h₂, h₃, h₄, by rw [unitEscape, digits], digits ▸ value⟩

/-- The numbers that a string in a text has for a character. -/
def unitsOf (c : Char) : List Nat :=
  if c.toNat < 0x10000 then [c.toNat]
  else [0xD800 + (c.toNat - 0x10000) / 0x400, 0xDC00 + (c.toNat - 0x10000) % 0x400]

theorem toNat_bounds (c : Char)
    : c.toNat < 0x110000 ∧ (c.toNat < 0xD800 ∨ 0xE000 ≤ c.toNat) := by
  have valid : c.toNat < 0xD800 ∨ 0xDFFF < c.toNat ∧ c.toNat < 0x110000 := c.valid
  omega

theorem readUnits_unitEscape {n : Nat} (small : n < 0x10000) (rest : List Char)
    : readUnits (unitEscape n ++ rest)
      = (readUnits rest).map fun found => (n :: found.1, found.2) := by
  obtain ⟨h₁, h₂, h₃, h₄, written, value⟩ := exists_unitEscape small
  rw [written]
  simp [readUnits, value]

/-- The characters that have an escape of their own. -/
def shortEscapes : List Char :=
  ['"', '\\', '\n', '\r', '\t', '\x08', '\x0c']

theorem writeChar_of_not_short {c : Char} (long : c ∉ shortEscapes)
    : writeChar c
      = if 0x20 ≤ c.toNat ∧ c.toNat < 0x7F then [c]
        else if c.toNat < 0x10000 then unitEscape c.toNat
        else
          unitEscape (0xD800 + (c.toNat - 0x10000) / 0x400)
            ++ unitEscape (0xDC00 + (c.toNat - 0x10000) % 0x400) := by
  simp only [shortEscapes, List.mem_cons, List.not_mem_nil, or_false, not_or] at long
  simp only [writeChar, long, if_false]

/-- A written character is read as its numbers, by cases on the form of its escape. -/
theorem readUnits_writeChar (c : Char) (rest : List Char)
    : readUnits (writeChar c ++ rest)
      = (readUnits rest).map fun found => (unitsOf c ++ found.1, found.2) := by
  by_cases short : c ∈ shortEscapes
  · simp only [shortEscapes, List.mem_cons, List.not_mem_nil, or_false] at short
    rcases short with rfl | rfl | rfl | rfl | rfl | rfl | rfl <;> rfl
  · rw [writeChar_of_not_short short]
    have bounds := toNat_bounds c
    by_cases printed : 0x20 ≤ c.toNat ∧ c.toNat < 0x7F
    · have basic : c.toNat < 0x10000 := by omega
      have visible : ¬c.toNat < 0x20 := by omega
      simp only [shortEscapes, List.mem_cons, List.not_mem_nil, or_false, not_or] at short
      rw [if_pos printed, unitsOf, if_pos basic, List.singleton_append, readUnits.eq_def]
      simp only [short, visible, if_false]
      rfl
    · rw [if_neg printed, unitsOf]
      by_cases basic : c.toNat < 0x10000
      · rw [if_pos basic, if_pos basic, readUnits_unitEscape basic]
        rfl
      · rw [if_neg basic, if_neg basic, List.append_assoc, readUnits_unitEscape (by omega),
          readUnits_unitEscape (by omega), Option.map_map]
        rfl

/-- The numbers of a character make up the character. -/
theorem joinUnits_unitsOf (c : Char) (units : List Nat)
    : joinUnits (unitsOf c ++ units) = (joinUnits units).map (c :: ·) := by
  have bounds := toNat_bounds c
  have same := Char.ofNat_toNat c
  unfold unitsOf
  split
  · next basic =>
      have noHigh : isHighSurrogate c.toNat = false := decide_eq_false (by omega)
      have noLow : isLowSurrogate c.toNat = false := decide_eq_false (by omega)
      rw [List.singleton_append, joinUnits.eq_def]
      simp only [noHigh, noLow, Bool.false_eq_true, if_false, same]
  · next astral =>
      have high : isHighSurrogate (0xD800 + (c.toNat - 0x10000) / 0x400) = true :=
        decide_eq_true (by omega)
      have low : isLowSurrogate (0xDC00 + (c.toNat - 0x10000) % 0x400) = true :=
        decide_eq_true (by omega)
      have joined
          : 0x10000 + 0x400 * (0xD800 + (c.toNat - 0x10000) / 0x400 - 0xD800)
              + (0xDC00 + (c.toNat - 0x10000) % 0x400 - 0xDC00)
            = c.toNat := by
        omega
      simp only [List.cons_append, List.nil_append, joinUnits, high, low, if_true, joined, same]

theorem readUnits_quote (rest : List Char) : readUnits ('"' :: rest) = some ([], rest) := by
  rw [readUnits.eq_def]
  rfl

/-- A written string is read back, whatever follows it. By induction along its characters. -/
theorem readString_writeString (s : String) (rest : List Char)
    : readString (s.toList.flatMap writeChar ++ '"' :: rest) = some (s, rest) := by
  have units (cs : List Char)
      : readUnits (cs.flatMap writeChar ++ '"' :: rest) = some (cs.flatMap unitsOf, rest) := by
    induction cs with
    | nil => exact readUnits_quote rest
    | cons c more ih =>
        rw [List.flatMap_cons, List.append_assoc, readUnits_writeChar, ih]
        rfl
  have chars (cs : List Char) : joinUnits (cs.flatMap unitsOf) = some cs := by
    induction cs with
    | nil => rfl
    | cons c more ih => rw [List.flatMap_cons, joinUnits_unitsOf, ih, Option.map_some]
  rw [readString, units, Option.bind_some, chars, Option.map_some, String.ofList_toList]

theorem unitEscape_ascii (n : Nat) : ∀ c ∈ unitEscape n, c.toNat < 128 := by
  have digits (n : Nat) : ∀ c ∈ Nat.toDigits 16 n, c.toNat < 128 := by
    induction n using Nat.strongRecOn with
    | ind n ih =>
        have digit : ∀ d < 16, (Nat.digitChar d).toNat < 128 := by decide
        rw [Nat.toDigits_eq_if (by omega)]
        split
        · next single => simpa using digit n single
        · next several =>
            intro c member
            rcases List.mem_append.mp member with leading | last
            · exact ih (n / 16) (by omega) c leading
            · rw [List.mem_singleton.mp last]
              exact digit (n % 16) (Nat.mod_lt n (by omega))
  intro c member
  simp only [unitEscape, hexadecimal, List.mem_cons, List.mem_append] at member
  rcases member with rfl | rfl | zero | own
  · decide
  · decide
  · rw [List.eq_of_mem_replicate zero]
    decide
  · exact digits n c own

theorem writeChar_ascii (c : Char) : ∀ d ∈ writeChar c, d.toNat < 128 := by
  by_cases short : c ∈ shortEscapes
  · have escapes : (shortEscapes.all fun e => (writeChar e).all fun d => d.toNat < 128) = true := by
      decide
    simp only [List.all_eq_true, decide_eq_true_eq] at escapes
    exact escapes c short
  · rw [writeChar_of_not_short short]
    split
    · next printed =>
        intro d member
        rw [List.mem_singleton.mp member]
        omega
    · split
      · exact unitEscape_ascii _
      · intro d member
        rcases List.mem_append.mp member with first | second
        · exact unitEscape_ascii _ d first
        · exact unitEscape_ascii _ d second

theorem writeString_ascii (s : String) : ∀ c ∈ writeString s, c.toNat < 128 := by
  intro c member
  simp only [writeString, List.cons_append, List.mem_cons, List.mem_append, List.mem_flatMap,
    List.not_mem_nil, or_false] at member
  rcases member with rfl | ⟨d, _, own⟩ | rfl
  · decide
  · exact writeChar_ascii d c own
  · decide

-----------------------------------------------------------------------------------------
-- Integers
-----------------------------------------------------------------------------------------

/-- What follows does not go on with a number. -/
def Stops (cs : List Char) : Prop :=
  ∀ c ∈ cs.head?, c.isDigit = false ∧ c ≠ '.' ∧ c ≠ 'e' ∧ c ≠ 'E'

theorem Stops.of_cons {c : Char} (digit : c.isDigit = false) (point : c ≠ '.')
    (exponent : c ≠ 'e' ∧ c ≠ 'E') (rest : List Char)
    : Stops (c :: rest) := by
  rintro d ⟨⟩
  exact ⟨digit, point, exponent⟩

/-- Only zero is written with a leading zero, by induction along the digits. -/
theorem eq_zero_of_head?_toDigits {n : Nat} (zero : (Nat.toDigits 10 n).head? = some '0')
    : n = 0 := by
  induction n using Nat.strongRecOn with
  | ind n ih =>
      by_cases single : n < 10
      · have digits : ∀ m < 10, Nat.digitChar m = '0' → m = 0 := by decide
        rw [Nat.toDigits_of_lt_base single] at zero
        exact digits n single (Option.some.inj zero)
      · obtain ⟨c, more, leading⟩ :=
          List.exists_cons_of_ne_nil (Nat.toDigits_ne_nil (b := 10) (n := n / 10))
        rw [Nat.toDigits_of_base_le (by omega) (by omega), leading] at zero
        have none := ih (n / 10) (by omega) (by rw [leading]; exact zero)
        omega

theorem readNatural_toDigits (n : Nat) {rest : List Char} (stops : Stops rest)
    : readNatural (Nat.toDigits 10 n ++ rest) = some (n, rest) := by
  have digits : ∀ c ∈ Nat.toDigits 10 n, c.isDigit = true :=
    fun c member => Nat.isDigit_of_mem_toDigits (by omega) (by omega) member
  have taken : rest.takeWhile Char.isDigit = [] ∧ rest.dropWhile Char.isDigit = rest := by
    cases rest with
    | nil => exact ⟨rfl, rfl⟩
    | cons c more => simp [(stops c rfl).1]
  have ends : continuesNumber rest = false := by
    cases rest with
    | nil => rfl
    | cons c more =>
        obtain ⟨_, point, lower, upper⟩ := stops c rfl
        simp [continuesNumber, point, lower, upper]
  have regular
      : ((Nat.toDigits 10 n).head? == some '0' && (Nat.toDigits 10 n).length != 1) = false := by
    cases zero : (Nat.toDigits 10 n).head? == some '0' with
    | false => rfl
    | true =>
        have isZero : n = 0 := eq_zero_of_head?_toDigits (by simpa using zero)
        rw [isZero]
        rfl
  have nonempty : (Nat.toDigits 10 n).isEmpty = false := by simp [Nat.toDigits_ne_nil]
  simp only [readNatural, List.takeWhile_append_of_pos digits, List.dropWhile_append_of_pos digits,
    taken, List.append_nil, nonempty, regular, ends, Nat.ofDigitChars_ten_toDigits,
    Bool.or_false, Bool.false_eq_true, if_false]

/-- A written integer is read back where no further digit follows. -/
theorem readInteger_toString (n : Int) {rest : List Char} (stops : Stops rest)
    : readInteger ((toString n).toList ++ rest) = some (n, rest) := by
  rw [toList_toString]
  by_cases negative : n < 0
  · rw [if_pos negative, List.singleton_append, List.cons_append, readInteger,
      readNatural_toDigits _ stops, Option.map_some, Int.ofNat_natAbs_of_nonpos (by omega),
      Int.neg_neg]
  · rw [if_neg negative, List.nil_append, readInteger]
    · rw [readNatural_toDigits _ stops, Option.map_some, Int.natAbs_of_nonneg (by omega)]
    · intro more start
      cases written : Nat.toDigits 10 n.natAbs with
      | nil => exact Nat.toDigits_ne_nil written
      | cons c others =>
          have digit : c.isDigit :=
            Nat.isDigit_of_mem_toDigits (b := 10) (n := n.natAbs) (by omega) (by omega)
              (by simp [written])
          rw [written, List.cons_append] at start
          exact ne_of_isDigit digit (by decide) (List.cons.inj start).1

theorem toString_ne_nil (n : Int) : (toString n).toList ≠ [] := by
  rw [toList_toString]
  exact List.append_ne_nil_of_right_ne_nil _ Nat.toDigits_ne_nil

/-- An integer starts with a sign or a digit. -/
theorem ne_of_written {n : Int} {c d : Char} {rest : List Char}
    (written : (toString n).toList = c :: rest) (noDigit : d.isDigit = false) (noSign : '-' ≠ d)
    : c ≠ d := by
  rcases mem_toString (n := n) (by rw [written]; exact List.mem_cons_self) with rfl | digit
  · exact noSign
  · exact ne_of_isDigit digit noDigit

theorem readPlain_toString (n : Int) {rest : List Char} (stops : Stops rest)
    : readPlain ((toString n).toList ++ rest) = some (.int n, rest) := by
  have read := readInteger_toString n stops
  obtain ⟨c, more, written⟩ := List.exists_cons_of_ne_nil (toString_ne_nil n)
  rw [written, List.cons_append] at read ⊢
  rw [readPlain]
  · rw [read, Option.map_some]
  all_goals
    intro behind start
    exact absurd (List.cons.inj start).1 (ne_of_written written (by decide) (by decide))

end ShaderReflection.Json
