import ShaderReflection.Proofs.Tokens.LineTokens
import ShaderReflection.Text.Split

/-! The tokens of a text of several lines, read from character to character. A line break ends a
word and a comment, so these are the tokens of the lines one after another.
-/

namespace ShaderReflection

/-- Only a slash looks at the character behind it, and only whether that is a slash. -/
theorem CharClass.of_congr_next {c : Char} {next other : Option Char}
    (same : c = '/' → (next = some '/' ↔ other = some '/'))
    : CharClass.of c next = CharClass.of c other := by
  have opens : (c = '/' ∧ next = some '/') ↔ (c = '/' ∧ other = some '/') :=
    and_congr_right same
  simp only [CharClass.of, opens]

namespace Text

variable {cs first : List Char} {more : List (List Char)}

theorem lines_cons (c : Char) (lines : Text.lines cs = first :: more)
    : Text.lines (c :: cs) = if c = '\n' then [] :: first :: more else (c :: first) :: more := by
  have cut : Text.lines (c :: cs) = consPart '\n' c (Text.lines cs) := rfl
  rw [cut, lines]
  rfl

theorem head?_of_lines (lines : Text.lines cs = first :: more)
    : first.head? = some '/' ↔ cs.head? = some '/' := by
  cases cs with
  | nil =>
      cases lines
      rfl
  | cons c rest =>
      obtain ⟨later, others, restLines⟩ := List.exists_cons_of_ne_nil (split_ne_nil '\n' rest)
      rw [lines_cons c restLines] at lines
      split at lines
      · next lineBreak =>
          cases lines
          simp [lineBreak]
      · cases lines
        simp

end Text

namespace Token

/-- The tokens that are found from a place in a text on, given whether that place is in a comment
and the word pending there.
-/
def scanning (comment : Bool) (word : List Char) : List Char → List Token
  | [] => ofPending word
  | c :: rest =>
      if c = '\n' then ofPending word ++ scanning false [] rest
      else if comment then scanning true word rest
      else match CharClass.of c rest.head? with
        | .mark m => ofPending word ++ .mark m :: scanning false [] rest
        | .commentStart => ofPending word ++ scanning true [] rest
        | .separator => ofPending word ++ scanning false [] rest
        | .wordChar => scanning false (word ++ [c]) rest

/-- What is found from a place on is what is found in the rest of its line, which is nothing in a
comment, and in the lines behind it. By induction along the text with any pending word.
-/
theorem scanning_eq_lines {cs first : List Char} {more : List (List Char)} (comment : Bool)
    (word : List Char) (lines : Text.lines cs = first :: more)
    : scanning comment word cs
      = (if comment then ofPending word else reading word first)
        ++ (more.map ofLine).flatten := by
  induction cs generalizing comment word first more with
  | nil =>
      cases lines
      cases comment <;> simp [scanning, reading]
  | cons c rest ih =>
      obtain ⟨later, others, restLines⟩ := List.exists_cons_of_ne_nil (Text.split_ne_nil '\n' rest)
      have next := Text.head?_of_lines restLines
      rw [Text.lines_cons c restLines] at lines
      rw [scanning]
      by_cases lineBreak : c = '\n'
      · rw [if_pos lineBreak] at lines ⊢
        cases lines
        rw [ih false [] restLines]
        cases comment <;> simp [reading, ofLine_eq_reading]
      · rw [if_neg lineBreak] at lines ⊢
        cases lines
        cases comment with
        | true =>
            rw [if_pos rfl, ih true word restLines]
            rfl
        | false =>
            rw [if_neg Bool.false_ne_true, if_neg Bool.false_ne_true, reading,
              CharClass.of_congr_next fun _ => next]
            cases CharClass.of c rest.head? with
            | mark m => simp [ih false [] restLines]
            | commentStart => simp [ih true [] restLines, ofPending]
            | separator => simp [ih false [] restLines]
            | wordChar => simpa using ih false (word ++ [c]) restLines

/-- The tokens of a text. -/
def ofText (cs : List Char) : List Token :=
  ((Text.lines cs).map ofLine).flatten

theorem ofText_eq_scanning (cs : List Char) : ofText cs = scanning false [] cs := by
  obtain ⟨first, more, lines⟩ := List.exists_cons_of_ne_nil (Text.split_ne_nil '\n' cs)
  have lines : Text.lines cs = first :: more := lines
  rw [scanning_eq_lines false [] lines, ofText, lines, if_neg Bool.false_ne_true,
    ← ofLine_eq_reading]
  rfl

theorem ofText_append (before behind : List Char)
    : ofText (before ++ '\n' :: behind) = ofText before ++ ofText behind := by
  have cut : Text.lines (before ++ '\n' :: behind) = Text.lines before ++ Text.lines behind :=
    Text.split_append '\n' before behind
  rw [ofText, cut, List.map_append, List.flatten_append, ofText, ofText]

end Token

end ShaderReflection
