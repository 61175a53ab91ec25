import ShaderReflection.Proofs.Tokens.Words
import ShaderReflection.Text.Integer

/-! Integers are read back as they are written in decimal, up to the limit on their digits, and what
is written is a word.
-/

namespace ShaderReflection.Text

theorem toNat_of_isDigit {c : Char} (digit : c.isDigit) : 48 ≤ c.toNat ∧ c.toNat ≤ 57 := by
  simp only [Char.isDigit, Bool.and_eq_true, decide_eq_true_eq, ge_iff_le, UInt32.le_iff_toNat_le]
    at digit
  exact digit

theorem ne_of_isDigit {c d : Char} (digit : c.isDigit) (other : d.isDigit = false) : c ≠ d := by
  rintro rfl
  rw [digit] at other
  cases other

/-- The first zero of the table is that of the ASCII digits. -/
theorem decimalValue?_of_isDigit {c : Char} (digit : c.isDigit)
    : decimalValue? c = some (c.toNat - '0'.toNat) := by
  obtain ⟨lower, upper⟩ := toNat_of_isDigit digit
  have first : 0x30 ≤ c.toNat ∧ c.toNat < 0x30 + 10 := ⟨lower, by omega⟩
  simp [decimalValue?, decimalZeros, first]

theorem isBlank_of_isDigit {c : Char} (digit : c.isDigit) : isBlank c = false := by
  have range := toNat_of_isDigit digit
  simp only [isBlank, Bool.or_eq_false_iff, Bool.and_eq_false_iff, decide_eq_false_iff_not,
    beq_eq_false_iff_ne]
  omega

theorem isWordChar_of_isDigit {c : Char} (digit : c.isDigit) : CharClass.isWordChar c := by
  have other {d : Char} (noDigit : d.isDigit = false) : c ≠ d := ne_of_isDigit digit noDigit
  have noMark : Mark.ofChar? c = none := by
    unfold Mark.ofChar?
    split <;> first | rfl | cases digit
  simp [CharClass.isWordChar, noMark, CharClass.isSeparator, other]

theorem groupedDigits?_of_isDigit {cs : List Char} (digits : ∀ c ∈ cs, c.isDigit)
    : groupedDigits? cs = some (cs.map fun c => c.toNat - '0'.toNat) := by
  induction cs with
  | nil => rfl
  | cons c rest ih =>
      have digit := digits c (by simp)
      have noUnderscore : c ≠ '_' := ne_of_isDigit digit (by decide)
      have others := ih fun d member => digits d (by simp [member])
      rw [groupedDigits?]
      · simp [decimalValue?_of_isDigit digit, others]
      · exact fun d more underscore _ => noUnderscore underscore

theorem natural?_toDigits {n : Nat} (short : n < Nat.pow 10 digitLimit)
    : natural? (Nat.toDigits 10 n) = some n := by
  have digits : ∀ c ∈ Nat.toDigits 10 n, c.isDigit :=
    fun c member => Nat.isDigit_of_mem_toDigits (by omega) (by omega) member
  have bounded {limit : Nat} (some : 0 < limit) (short : n < Nat.pow 10 limit)
      : (Nat.toDigits 10 n).length ≤ limit :=
    (Nat.length_toDigits_le_iff (by omega) some).mpr short
  have length : (Nat.toDigits 10 n).length ≤ digitLimit := bounded (by decide) short
  have value : ofDigits ((Nat.toDigits 10 n).map fun c => c.toNat - '0'.toNat) = n := by
    rw [ofDigits, List.foldl_map, ← Nat.ofDigitChars_eq_foldl, Nat.ofDigitChars_ten_toDigits]
  have read : digits? (Nat.toDigits 10 n)
      = some ((Nat.toDigits 10 n).map fun c => c.toNat - '0'.toNat) := by
    cases written : Nat.toDigits 10 n with
    | nil => exact absurd written Nat.toDigits_ne_nil
    | cons c rest =>
        rw [written] at digits
        have noUnderscore : c ≠ '_' := ne_of_isDigit (digits c (by simp)) (by decide)
        rw [digits?, if_neg noUnderscore, groupedDigits?_of_isDigit digits]
  simp only [natural?, read, List.length_map, length, if_true, value]

theorem trimBlanks_of_no_blank {cs : List Char} (solid : ∀ c ∈ cs, isBlank c = false)
    : trimBlanks cs = cs := by
  have kept {ds : List Char} (solid : ∀ c ∈ ds, isBlank c = false)
      : ds.dropWhile isBlank = ds := by
    cases ds with
    | nil => rfl
    | cons c rest => simp [solid c (by simp)]
  rw [trimBlanks, kept solid, kept (by simpa using solid), List.reverse_reverse]

/-- A written integer is a sign, if it is negative, and the digits of its absolute value. -/
theorem toList_toString (n : Int)
    : (toString n).toList
      = (if n < 0 then ['-'] else []) ++ Nat.toDigits 10 n.natAbs := by
  cases n with
  | ofNat m =>
      simp [Int.toString_eq_repr, Int.repr]
  | negSucc m =>
      have negative : Int.negSucc m < 0 := Int.negSucc_lt_zero m
      simp [Int.toString_eq_repr, Int.repr, negative]

theorem mem_toString {n : Int} {c : Char} (member : c ∈ (toString n).toList)
    : c = '-' ∨ c.isDigit := by
  rw [toList_toString] at member
  rcases List.mem_append.mp member with sign | digit
  · split at sign
    · exact Or.inl (List.mem_singleton.mp sign)
    · cases sign
  · exact Or.inr (Nat.isDigit_of_mem_toDigits (by omega) (by omega) digit)

/-- Reading undoes writing for every integer that may be written. -/
theorem integer?_toString {n : Int} (writable : isWritable n)
    : integer? (toString n) = some n := by
  have short : n.natAbs < Nat.pow 10 digitLimit := of_decide_eq_true writable
  have solid : ∀ c ∈ (toString n).toList, isBlank c = false := by
    intro c member
    rcases mem_toString member with rfl | digit
    · decide
    · exact isBlank_of_isDigit digit
  rw [integer?, trimBlanks_of_no_blank solid, toList_toString]
  by_cases negative : n < 0
  · rw [if_pos negative, List.singleton_append, signed?, natural?_toDigits short]
    change some (-(n.natAbs : Int)) = some n
    rw [Int.ofNat_natAbs_of_nonpos (Int.le_of_lt negative), Int.neg_neg]
  · rw [if_neg negative, List.nil_append]
    cases written : Nat.toDigits 10 n.natAbs with
    | nil => exact absurd written Nat.toDigits_ne_nil
    | cons c rest =>
        have digit : c.isDigit :=
          Nat.isDigit_of_mem_toDigits (b := 10) (n := n.natAbs) (by omega) (by omega)
            (by simp [written])
        rw [signed?]
        · rw [← written, natural?_toDigits short]
          change some (n.natAbs : Int) = some n
          rw [Int.natAbs_of_nonneg (Int.not_lt.mp negative)]
        · exact fun more start =>
            ne_of_isDigit digit (d := '-') (by decide) (List.cons.inj start).1
        · exact fun more start =>
            ne_of_isDigit digit (d := '+') (by decide) (List.cons.inj start).1

theorem isWord_toString (n : Int) : IsWord (toString n) := by
  have noSlash : '/' ∉ (toString n).toList := by
    intro slash
    rcases mem_toString slash with sign | digit <;> contradiction
  refine ⟨?_, ?_, ?_⟩
  · intro empty
    have characters := toList_toString n
    rw [empty] at characters
    have digits : Nat.toDigits 10 n.natAbs ≠ [] := Nat.toDigits_ne_nil
    simp [digits] at characters
  · intro c member
    rcases mem_toString member with rfl | digit
    · decide
    · exact isWordChar_of_isDigit digit
  · intro comment
    exact noSlash (comment.subset (by simp))

end ShaderReflection.Text
