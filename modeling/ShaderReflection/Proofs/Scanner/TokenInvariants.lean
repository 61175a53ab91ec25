import ShaderReflection.Proofs.Scanner.Turns

/-! Properties of a scan that its tokens keep. Such a property may speak of the tokens that are
still to come. It holds from character to character, whatever word is pending and whatever text is
captured, since characters do nothing but complete tokens.
-/

namespace ShaderReflection.Scanner

variable {s u : Scanner} {limits : Limits} {cs : List Char} {c : Char}

/-- A property of a scan and of the tokens to come that survives every token, and for which line
numbers, pending words, comments and captured text do not matter.
-/
structure KeptByTokens (I : List Token → Scanner → Prop) : Prop where
  accept : ∀ {token rest s}, I (token :: rest) s → I rest (s.accept token)
  hidden
    : ∀ {rest s} (lineNumber : Nat) (word : Buffer) (inComment : Bool),
        I rest s → I rest { s with lineNumber, word, inComment }
  captured : ∀ {rest s} (c : Char), I rest s → I rest (s.captured c)

namespace KeptByTokens

variable {I : List Token → Scanner → Prop}

/-- Ending the pending word is taking in the token that it becomes. -/
theorem flushWord (kept : KeptByTokens I) (rest : List Token)
    (h : I (Token.ofPending s.word.chars.toList ++ rest) s)
    : I rest s.flushWord := by
  cases pending : s.word.isEmpty with
  | true =>
      rw [flushWord_of_empty pending]
      rw [Buffer.isEmpty_iff.mp pending] at h
      exact h
  | false =>
      have nonempty : s.word.chars.toList ≠ [] := by simpa [Buffer.isEmpty] using pending
      rw [flushWord_of_pending pending]
      rw [Token.ofPending, if_neg nonempty] at h
      exact kept.accept (kept.hidden s.lineNumber {} s.inComment h)

/-- A character leads on with the tokens that it completes, by cases on its class. -/
theorem advance (kept : KeptByTokens I)
    (h : I (Token.scanning s.inComment s.word.chars.toList (c :: cs)) s)
    : I (Token.scanning (s.advance c cs.head?).inComment
          (s.advance c cs.head?).word.chars.toList cs)
        (s.advance c cs.head?) := by
  rw [Token.scanning] at h
  unfold Scanner.advance
  by_cases lineBreak : c = '\n'
  · have ended : s.flushWord.word = {} := s.flushWord_spot.word
    rw [if_pos lineBreak] at h ⊢
    rw [startLine, ended]
    exact kept.hidden (s.flushWord.lineNumber + 1) {} false (kept.flushWord _ h)
  · rw [if_neg lineBreak] at h ⊢
    have captured := kept.captured c h
    have spot := (s.captured c).flushWord_spot
    cases comment : s.inComment with
    | true =>
        have still : (s.captured c).inComment = true := comment
        rw [comment] at captured
        rw [if_pos rfl, still]
        exact captured
    | false =>
        have code : (s.captured c).flushWord.inComment = false := spot.inComment.trans comment
        rw [comment, if_neg Bool.false_ne_true] at captured
        rw [if_neg Bool.false_ne_true]
        cases kind : CharClass.of c cs.head? with
        | mark mark =>
            have there := accept_spot (s.captured c).flushWord (.mark mark)
            rw [kind] at captured
            rw [react, there.inComment, there.word, spot.word, code]
            exact kept.accept (kept.flushWord _ captured)
        | commentStart =>
            rw [kind] at captured
            rw [react, spot.word]
            exact kept.hidden _ {} true (kept.flushWord _ captured)
        | separator =>
            rw [kind] at captured
            rw [react, spot.word, code]
            exact kept.flushWord _ captured
        | wordChar =>
            have still : (s.captured c).inComment = false := comment
            rw [kind] at captured
            rw [react, Buffer.toList_push, still]
            exact kept.hidden _ _ _ captured

/-- A property that tokens keep holds at the end of a text, given the tokens from there on. By
induction along the text.
-/
theorem feedAll (kept : KeptByTokens I)
    (h : I (Token.scanning s.inComment s.word.chars.toList cs) s)
    : ∃ u, s.feedAll {} cs = .ok u ∧ I (Token.ofPending u.word.chars.toList) u := by
  induction cs generalizing s with
  | nil => exact ⟨s, rfl, h⟩
  | cons c rest ih =>
      rw [Scanner.feedAll, feed_unlimited]
      exact ih (kept.advance h)

end KeptByTokens

-----------------------------------------------------------------------------------------
-- Texts that go on
-----------------------------------------------------------------------------------------

/-- A text that goes on with no slash is scanned in two portions. -/
theorem feedAll_append (limits : Limits) (s : Scanner) (before behind : List Char)
    (apart : behind.head? ≠ some '/')
    : s.feedAll limits (before ++ behind)
      = (s.feedAll limits before).bind fun t => t.feedAll limits behind := by
  induction before generalizing s with
  | nil => rfl
  | cons c rest ih =>
      have next : (rest ++ behind).head? = some '/' ↔ rest.head? = some '/' := by
        cases rest with
        | nil => simp [apart]
        | cons d more => rfl
      have same : s.feed limits c (rest ++ behind).head? = s.feed limits c rest.head? := by
        simp only [feed, step_congr_next next]
      rw [List.cons_append, feedAll, feedAll, same]
      cases s.feed limits c rest.head? with
      | error stopped => rfl
      | ok t => exact ih t

/-- Lines can be scanned in two portions in the middle of a line. -/
theorem scanLines_append_chars {limits : Limits} {t : Scanner} {before behind : List Char}
    (apart : behind.head? ≠ some '/') (idle : u.word = {})
    (reached : s.startLine.feedAll limits before = .ok t)
    (fed : t.feedAll limits behind = .ok u)
    : s.scanLines limits (Text.lines (before ++ behind)) = .ok u := by
  rw [scanLines_lines, feedAll_append limits _ before behind apart, reached]
  simp only [Except.bind, fed, Except.map, flushWord_of_empty (Buffer.isEmpty_iff.mpr idle)]

/-- Without comments in it, a text is not left in a comment. By induction along the text. -/
theorem feedAll_code (code : s.inComment = false)
    (noComment : ¬['/', '/'] <:+: cs) (fed : s.feedAll {} cs = .ok u)
    : u.inComment = false := by
  induction cs generalizing s with
  | nil =>
      cases fed
      exact code
  | cons c rest ih =>
      obtain ⟨apart, noComment⟩ := Text.noComment_cons_iff.mp noComment
      rw [feedAll, feed_unlimited] at fed
      refine ih ?_ noComment fed
      rw [advance_inComment, code]
      simpa using fun _ => apart

/-- A text does not end in a comment if its last line holds none. On its first line the comment may
be an earlier one. By induction along the text.
-/
theorem feedAll_inComment {first : List Char} {more : List (List Char)}
    (lines : Text.lines cs = first :: more) (code : more = [] → s.inComment = false)
    (noComment : ∀ last ∈ (first :: more).getLast?, ¬['/', '/'] <:+: last)
    (fed : s.feedAll {} cs = .ok u)
    : u.inComment = false := by
  induction cs generalizing s first more with
  | nil =>
      cases lines
      cases fed
      exact code rfl
  | cons c rest ih =>
      obtain ⟨later, others, restLines⟩ := List.exists_cons_of_ne_nil (Text.split_ne_nil '\n' rest)
      have next := Text.head?_of_lines restLines
      rw [Text.lines_cons c restLines] at lines
      rw [feedAll, feed_unlimited] at fed
      by_cases lineBreak : c = '\n'
      · rw [if_pos lineBreak] at lines
        cases lines
        refine ih restLines (fun _ => ?_) noComment fed
        simp [advance_inComment, lineBreak]
      · rw [if_neg lineBreak] at lines
        cases lines
        cases more with
        | nil =>
            have plain : ¬['/', '/'] <:+: c :: later := noComment _ rfl
            obtain ⟨apart, plain⟩ := Text.noComment_cons_iff.mp plain
            rw [next] at apart
            refine ih restLines (fun _ => ?_) (by rintro last ⟨⟩; exact plain) fed
            rw [advance_inComment, code rfl]
            simpa [lineBreak] using apart
        | cons line others => exact ih restLines (fun none => by cases none) noComment fed

end ShaderReflection.Scanner
