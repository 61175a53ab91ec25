import ShaderReflection.Proofs.Tokens.LineTokens

/-! Words: what a scan can collect between two marks or separators. A word in front of a mark or
separator is read whole.
-/

namespace ShaderReflection

/-- Characters that can stand side by side in a word: no marks, no separators and no comment. -/
structure Text.Wordlike (cs : List Char) : Prop where
  inWord : ∀ c ∈ cs, CharClass.isWordChar c
  noComment : ¬['/', '/'] <:+: cs

/-- A word: at least one character, and all of them can stand side by side in a word. -/
structure Text.IsWord (text : String) : Prop where
  nonempty : text ≠ ""
  wordlike : Text.Wordlike text.toList

namespace Text

/-- A text holds no comment if none starts with its first character and none is behind it. -/
theorem noComment_cons_iff {c : Char} {rest : List Char}
    : ¬['/', '/'] <:+: c :: rest
      ↔ ¬(c = '/' ∧ rest.head? = some '/') ∧ ¬['/', '/'] <:+: rest := by
  have starts : ['/', '/'] <+: c :: rest ↔ c = '/' ∧ rest.head? = some '/' := by
    cases rest with
    | nil => simp
    | cons d more => simp [List.cons_prefix_cons, eq_comm]
  rw [List.infix_cons_iff, not_or, starts]

/-- Nothing is cut off exactly if there is no comment, by induction along the characters. -/
theorem beforeComment_eq_self_iff (cs : List Char)
    : beforeComment cs = cs ↔ ¬['/', '/'] <:+: cs := by
  induction cs with
  | nil => simp [beforeComment]
  | cons c rest ih =>
      rw [noComment_cons_iff, beforeComment]
      split
      · next comment => simp [comment]
      · next noComment => simp [noComment, ih]

instance : DecidablePred Wordlike := fun cs =>
  decidable_of_iff (cs.all CharClass.isWordChar ∧ beforeComment cs = cs) (by
    rw [List.all_eq_true, beforeComment_eq_self_iff]
    exact ⟨fun h => ⟨h.1, h.2⟩, fun h => ⟨h.inWord, h.noComment⟩⟩)

instance : DecidablePred IsWord := fun text =>
  decidable_of_iff (text ≠ "" ∧ Wordlike text.toList)
    ⟨fun h => ⟨h.1, h.2⟩, fun h => ⟨h.nonempty, h.wordlike⟩⟩

theorem Wordlike.nil : Wordlike [] :=
  ⟨by simp, by simp⟩

/-- Two texts without a comment have none between them either, unless both have a slash there. By
induction along the first.
-/
theorem noComment_append {cs ds : List Char} (left : ¬['/', '/'] <:+: cs)
    (right : ¬['/', '/'] <:+: ds) (apart : cs.getLast? = some '/' → ds.head? ≠ some '/')
    : ¬['/', '/'] <:+: cs ++ ds := by
  induction cs with
  | nil => exact right
  | cons c rest ih =>
      obtain ⟨first, left⟩ := noComment_cons_iff.mp left
      cases rest with
      | nil => exact noComment_cons_iff.mpr ⟨fun ⟨slash, next⟩ => apart (by simp [slash]) next, right⟩
      | cons d more => exact noComment_cons_iff.mpr ⟨first, ih left (by simpa using apart)⟩

/-- A word goes on with any word character that makes no comment with the one before it. -/
theorem Wordlike.push {cs : List Char} {c : Char} (h : Wordlike cs)
    (goesOn : CharClass.isWordChar c) (noComment : cs.getLast? = some '/' → c ≠ '/')
    : Wordlike (cs ++ [c]) := by
  have alone : ¬['/', '/'] <:+: [c] := noComment_cons_iff.mpr ⟨by simp, by simp⟩
  refine ⟨?_, noComment_append h.noComment alone (by simpa using noComment)⟩
  intro d member
  rcases List.mem_append.mp member with old | new
  · exact h.inWord d old
  · exact List.mem_singleton.mp new ▸ goesOn

theorem isWord_ofList {cs : List Char} (h : Wordlike cs) (nonempty : cs ≠ [])
    : IsWord (String.ofList cs) := by
  refine ⟨?_, by simpa using h⟩
  intro empty
  apply nonempty
  have := congrArg String.toList empty
  simpa using this

theorem Wordlike.of_cons {c : Char} {cs : List Char} (h : Wordlike (c :: cs))
    : CharClass.isWordChar c ∧ ¬(c = '/' ∧ cs.head? = some '/') ∧ Wordlike cs := by
  obtain ⟨first, noComment⟩ := noComment_cons_iff.mp h.noComment
  exact ⟨h.inWord c (by simp), first, fun d member => h.inWord d (by simp [member]), noComment⟩

end Text

namespace Token

open CharClass

theorem reading_mark {c : Char} {m : Mark} (word rest : List Char)
    (isMark : Mark.ofChar? c = some m)
    : reading word (c :: rest) = ofPending word ++ .mark m :: reading [] rest := by
  simp only [reading, of_eq_mark_iff.mpr isMark]

theorem reading_separator {c : Char} (word rest : List Char) (separates : isSeparator c)
    : reading word (c :: rest) = ofPending word ++ reading [] rest := by
  simp only [reading, of_eq_separator_iff.mpr separates]

theorem reading_stop {c : Char} (word rest : List Char) (stops : isWordChar c = false)
    : reading word (c :: rest) = ofPending word ++ reading [] (c :: rest) := by
  cases isMark : Mark.ofChar? c with
  | some m =>
      rw [reading_mark word rest isMark, reading_mark [] rest isMark]
      rfl
  | none =>
      have separates : isSeparator c := by simpa [isWordChar, isMark] using stops
      rw [reading_separator word rest separates, reading_separator [] rest separates]
      rfl

/-- Characters of a word join the pending word, by induction along them. -/
theorem reading_wordlike {c : Char} (word more rest : List Char) (wordlike : Text.Wordlike more)
    (stops : isWordChar c = false)
    : reading word (more ++ c :: rest) = ofPending (word ++ more) ++ reading [] (c :: rest) := by
  induction more generalizing word with
  | nil => simpa using reading_stop word rest stops
  | cons d others ih =>
      obtain ⟨goesOn, noComment, tail⟩ := wordlike.of_cons
      have class_eq : CharClass.of d (others ++ c :: rest).head? = .wordChar := by
        refine of_eq_wordChar_iff.mpr ⟨goesOn, ?_⟩
        cases others with
        | nil =>
            rintro ⟨-, slash⟩
            rw [List.nil_append, List.head?_cons, Option.some.injEq] at slash
            subst slash
            cases stops
        | cons e _ => exact noComment
      rw [List.cons_append, reading, class_eq]
      simpa using ih (word ++ [d]) tail

/-- A word in front of a mark or separator is the first token. -/
theorem reading_word {text : String} {c : Char} (rest : List Char) (isWord : Text.IsWord text)
    (stops : isWordChar c = false)
    : reading [] (text.toList ++ c :: rest) = .word text :: reading [] (c :: rest) := by
  have nonempty : text.toList ≠ [] := by simpa using isWord.nonempty
  rw [reading_wordlike [] text.toList rest isWord.wordlike stops, List.nil_append, ofPending,
    if_neg nonempty, String.ofList_toList]
  rfl

end Token

end ShaderReflection
