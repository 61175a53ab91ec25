import ShaderReflection.Scanner.Token

/-! The tokens of a line: what stands before its first comment, cut into marks and maximal words.
A reader that goes from character to character with a pending word finds the same tokens.
-/

namespace ShaderReflection

namespace CharClass

/-- Whether a character belongs to a word wherever it does not open a comment. -/
def isWordChar (c : Char) : Bool :=
  (Mark.ofChar? c).isNone && !isSeparator c

/-- No separator is a mark, by going through the four of them. -/
theorem ofChar?_of_isSeparator {c : Char} (separates : isSeparator c) : Mark.ofChar? c = none := by
  simp only [isSeparator, Bool.or_eq_true, beq_iff_eq] at separates
  rcases separates with ((rfl | rfl) | rfl) | rfl <;> rfl

theorem of_eq_mark_iff {c : Char} {next : Option Char} {m : Mark}
    : CharClass.of c next = .mark m ↔ Mark.ofChar? c = some m := by
  unfold CharClass.of
  cases Mark.ofChar? c with
  | some found => simp
  | none =>
      simp only [reduceCtorEq, iff_false]
      split
      · simp
      · split <;> simp

theorem of_eq_commentStart_iff {c : Char} {next : Option Char}
    : CharClass.of c next = .commentStart ↔ c = '/' ∧ next = some '/' := by
  constructor
  · intro found
    unfold CharClass.of at found
    split at found
    · cases found
    · split at found
      · assumption
      · split at found <;> cases found
  · rintro ⟨rfl, rfl⟩
    rfl

theorem of_eq_separator_iff {c : Char} {next : Option Char}
    : CharClass.of c next = .separator ↔ isSeparator c := by
  constructor
  · intro found
    unfold CharClass.of at found
    split at found
    · cases found
    · split at found
      · cases found
      · split at found
        · assumption
        · cases found
  · intro separates
    have noSlash : c ≠ '/' := by
      rintro rfl
      cases separates
    simp [CharClass.of, ofChar?_of_isSeparator separates, noSlash, separates]

theorem of_eq_wordChar_iff {c : Char} {next : Option Char}
    : CharClass.of c next = .wordChar ↔ isWordChar c ∧ ¬(c = '/' ∧ next = some '/') := by
  constructor
  · intro found
    unfold CharClass.of at found
    split at found
    · cases found
    · next noMark =>
        split at found
        · cases found
        · next noComment =>
            split at found
            · cases found
            · next noSeparator => exact ⟨by simp [isWordChar, noMark, noSeparator], noComment⟩
  · rintro ⟨inWord, noComment⟩
    simp only [isWordChar, Bool.and_eq_true, Option.isNone_iff_eq_none, Bool.not_eq_true'] at inWord
    simp [CharClass.of, inWord, noComment]

end CharClass

/-- A line up to its first two adjacent slashes. -/
def Text.beforeComment : List Char → List Char
  | [] => []
  | c :: rest =>
      if c = '/' ∧ rest.head? = some '/' then [] else c :: beforeComment rest

namespace Token

open CharClass

/-- The tokens of a text without comments: each mark, and each maximal run of word characters. -/
def runs : List Char → List Token
  | [] => []
  | c :: rest =>
      match Mark.ofChar? c with
      | some m => .mark m :: runs rest
      | none =>
          if isSeparator c then runs rest
          else
            .word (String.ofList (c :: rest.takeWhile isWordChar))
              :: runs (rest.dropWhile isWordChar)
termination_by cs => cs.length
decreasing_by
  all_goals simp only [List.length_cons]
  · omega
  · omega
  · have shorter : (rest.dropWhile isWordChar).length ≤ rest.length :=
      (List.dropWhile_sublist isWordChar).length_le
    omega

/-- The tokens of a line. -/
def ofLine (line : List Char) : List Token :=
  runs (Text.beforeComment line)

/-- The token that a pending word becomes. There is none without characters. -/
def ofPending (word : List Char) : List Token :=
  if word = [] then [] else [.word (String.ofList word)]

/-- The tokens that are found from a place in a line on, given the word pending there. -/
def reading (word : List Char) : List Char → List Token
  | [] => ofPending word
  | c :: rest =>
      match CharClass.of c rest.head? with
      | .mark m => ofPending word ++ .mark m :: reading [] rest
      | .commentStart => ofPending word
      | .separator => ofPending word ++ reading [] rest
      | .wordChar => reading (word ++ [c]) rest

/-- A run of word characters that nothing continues is one word. Witness: the run is what
`takeWhile` takes of its own tail.
-/
theorem runs_append_of_word (word rest : List Char) (inWord : ∀ c ∈ word, isWordChar c)
    (ends : ∀ c ∈ rest.head?, isWordChar c = false)
    : runs (word ++ rest) = ofPending word ++ runs rest := by
  cases word with
  | nil => rfl
  | cons c more =>
      have first : isWordChar c := inWord c (by simp)
      have others : ∀ d ∈ more, isWordChar d := fun d member => inWord d (by simp [member])
      have taken : (more ++ rest).takeWhile isWordChar = more := by
        rw [List.takeWhile_append_of_pos others]
        cases rest with
        | nil => simp
        | cons d behind => simp [ends d (by simp)]
      have dropped : (more ++ rest).dropWhile isWordChar = rest := by
        rw [List.dropWhile_append_of_pos others]
        cases rest with
        | nil => rfl
        | cons d behind => simp [ends d (by simp)]
      simp only [isWordChar, Bool.and_eq_true, Option.isNone_iff_eq_none, Bool.not_eq_true']
        at first
      rw [List.cons_append, runs]
      simp [first.1, first.2, taken, dropped, ofPending]

theorem runs_mark (m : Mark) (c : Char) (rest : List Char) (isMark : Mark.ofChar? c = some m)
    : runs (c :: rest) = .mark m :: runs rest := by
  rw [runs, isMark]

theorem runs_separator (c : Char) (rest : List Char) (separates : isSeparator c)
    : runs (c :: rest) = runs rest := by
  rw [runs, ofChar?_of_isSeparator separates]
  simp [separates]

/-- Reading from character to character finds the maximal runs, by induction along the line with
any pending word.
-/
theorem reading_eq_runs (word cs : List Char) (inWord : ∀ c ∈ word, isWordChar c)
    : reading word cs = runs (word ++ Text.beforeComment cs) := by
  induction cs generalizing word with
  | nil =>
      rw [reading, Text.beforeComment, runs_append_of_word word [] inWord (by simp), runs]
      simp
  | cons c rest ih =>
      have kept (noComment : ¬(c = '/' ∧ rest.head? = some '/'))
          : Text.beforeComment (c :: rest) = c :: Text.beforeComment rest := by
        rw [Text.beforeComment, if_neg noComment]
      cases kind : CharClass.of c rest.head? with
      | mark m =>
          have isMark := of_eq_mark_iff.mp kind
          have stops : isWordChar c = false := by simp [isWordChar, isMark]
          have noSlash : c ≠ '/' := by
            rintro rfl
            cases isMark
          rw [kept (noSlash ·.1), runs_append_of_word word _ inWord (by simp [stops]),
            runs_mark m c _ isMark]
          simp [reading, kind, ih [] (by simp)]
      | commentStart =>
          have cut : Text.beforeComment (c :: rest) = [] := by
            rw [Text.beforeComment, if_pos (of_eq_commentStart_iff.mp kind)]
          rw [cut, runs_append_of_word word [] inWord (by simp)]
          simp [reading, kind, runs]
      | separator =>
          have separates := of_eq_separator_iff.mp kind
          have stops : isWordChar c = false := by simp [isWordChar, separates]
          have noSlash : c ≠ '/' := by
            rintro rfl
            cases separates
          rw [kept (noSlash ·.1), runs_append_of_word word _ inWord (by simp [stops]),
            runs_separator c _ separates]
          simp [reading, kind, ih [] (by simp)]
      | wordChar =>
          obtain ⟨goesOn, noComment⟩ := of_eq_wordChar_iff.mp kind
          have longer : ∀ d ∈ word ++ [c], isWordChar d := by
            intro d member
            rcases List.mem_append.mp member with old | new
            · exact inWord d old
            · exact List.mem_singleton.mp new ▸ goesOn
          rw [kept noComment, reading, kind]
          simpa using ih (word ++ [c]) longer

theorem ofLine_eq_reading (line : List Char) : ofLine line = reading [] line := by
  rw [reading_eq_runs [] line (by simp), ofLine, List.nil_append]

end Token

end ShaderReflection
