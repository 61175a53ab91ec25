import ShaderReflection.Proofs.Scanner.Agreement
import ShaderReflection.Proofs.Tokens.LineTokens

/-! A scan over characters agrees with a machine that is given the tokens of each line. The pending
word and the comment flag are the hidden state of the scan: the word is what the next token starts
with, and in a comment there are no tokens.
-/

namespace ShaderReflection.Scanner

/-- Takes in tokens one after another. -/
def acceptAll (s : Scanner) (tokens : List Token) : Scanner :=
  tokens.foldl accept s

/-- Takes in the tokens of one line after another. -/
def acceptLines (s : Scanner) (lines : List (List Token)) : Scanner :=
  lines.foldl (fun s tokens => s.startLine.acceptAll tokens) s

variable {α : Type} {view : Warning → α} {limits : Limits} {s t u : Scanner}

theorem acceptAll_append (s : Scanner) (first second : List Token)
    : s.acceptAll (first ++ second) = (s.acceptAll first).acceptAll second :=
  List.foldl_append

theorem acceptAll_spot (s : Scanner) (tokens : List Token)
    : SameSpot (s.acceptAll tokens) s := by
  induction tokens generalizing s with
  | nil => exact .refl s
  | cons token rest ih => exact (ih (s.accept token)).trans (s.accept_spot token)

theorem Agree.acceptAll (h : Agree view s t) (tokens : List Token)
    : Agree view (s.acceptAll tokens) (t.acceptAll tokens) := by
  induction tokens generalizing s t with
  | nil => exact h
  | cons token rest ih => exact ih (h.accept token)

/-- Scans that differ only in fields which no token reads agree. -/
theorem Agree.of_hidden (word : Buffer) (inComment : Bool) (h : Agree view s t)
    : Agree view { s with word, inComment } t :=
  { h with }

/-- Ending the pending word is taking in the token that it becomes. -/
theorem Agree.flushWord (h : Agree view s t)
    : Agree view s.flushWord (t.acceptAll (Token.ofPending s.word.chars.toList)) := by
  cases pending : s.word.isEmpty with
  | true =>
      rw [flushWord_of_empty pending, Buffer.isEmpty_iff.mp pending]
      exact h
  | false =>
      have some : s.word.chars.toList ≠ [] := by simpa [Buffer.isEmpty] using pending
      rw [flushWord_of_pending pending, Token.ofPending, if_neg some]
      exact (h.of_hidden {} s.inComment).accept (.word s.word.text)

/-- Capturing a character changes nothing but captured text. -/
theorem capture_agree {c : Char} (captured : s.capture limits c = .ok u) (h : Agree view s t)
    : Agree view u t ∧ SameSpot u s := by
  rw [capture_cases] at captured
  split at captured
  · cases captured
    exact ⟨h, .refl s⟩
  · next block place =>
      split at captured
      · cases captured
        exact ⟨h, .refl s⟩
      · split at captured
        · cases captured
        · cases captured
          refine ⟨{ h with place := ?_ }, ⟨rfl, rfl, rfl⟩⟩
          rw [← h.place, place]
          rfl

theorem steps_agree_of_comment {cs : List Char} (stepped : s.steps limits cs = .ok u)
    (comment : s.inComment = true) (h : Agree view s t)
    : Agree view u t ∧ SameSpot u s := by
  induction cs generalizing s with
  | nil =>
      cases stepped
      exact ⟨h, .refl _⟩
  | cons c rest ih =>
      rw [steps, step] at stepped
      cases captured : s.capture limits c with
      | error stopped => simp [captured] at stepped
      | ok next =>
          obtain ⟨agrees, spot⟩ := capture_agree captured h
          have still : next.inComment = true := spot.inComment.trans comment
          simp only [captured, still, if_true] at stepped
          obtain ⟨done, after⟩ := ih stepped still agrees
          exact ⟨done, after.trans spot⟩

/-- The rest of a line does what its tokens do, by induction along the line. The pending word is
carried along because the next token starts with it.
-/
theorem steps_agree {cs : List Char} (stepped : s.steps limits cs = .ok u)
    (outside : s.inComment = false) (h : Agree view s t)
    : Agree view u.flushWord (t.acceptAll (Token.reading s.word.chars.toList cs)) := by
  induction cs generalizing s t with
  | nil =>
      cases stepped
      exact h.flushWord
  | cons c rest ih =>
      rw [steps, step] at stepped
      cases captured : s.capture limits c with
      | error stopped => simp [captured] at stepped
      | ok next =>
          obtain ⟨agrees, spot⟩ := capture_agree captured h
          have still : next.inComment = false := spot.inComment.trans outside
          simp only [captured, still, Bool.false_eq_true, if_false, classify] at stepped
          rw [← spot.word, Token.reading]
          cases kind : CharClass.of c rest.head? with
          | mark m =>
              simp only [kind] at stepped ⊢
              have flushed := agrees.flushWord.accept (.mark m)
              have there := (accept_spot next.flushWord (.mark m)).trans next.flushWord_spot
              have read := ih stepped (there.inComment.trans still) flushed
              rw [there.word] at read
              rw [acceptAll_append]
              exact read
          | commentStart =>
              simp only [kind] at stepped ⊢
              have flushed := agrees.flushWord.of_hidden next.flushWord.word true
              obtain ⟨done, after⟩ := steps_agree_of_comment stepped rfl flushed
              have idle : u.word.isEmpty :=
                Buffer.isEmpty_iff.mpr (after.word.trans next.flushWord_spot.word)
              rw [flushWord_of_empty idle]
              exact done
          | separator =>
              simp only [kind] at stepped ⊢
              have there := next.flushWord_spot
              have read := ih stepped (there.inComment.trans still) agrees.flushWord
              rw [there.word] at read
              rw [acceptAll_append]
              exact read
          | wordChar =>
              simp only [kind, extendWord_eq] at stepped ⊢
              cases full : next.word.wordOverflow? limits.word with
              | some overflow => simp [full] at stepped
              | none =>
                  simp only [full] at stepped
                  have read := ih stepped still (agrees.of_hidden (next.word.push c) next.inComment)
                  rw [Buffer.toList_push] at read
                  exact read

/-- A whole line does what its tokens do, and leaves no word pending. -/
theorem scanLine_agree {line : List Char} (scanned : s.scanLine limits line = .ok u)
    (idle : s.word = {}) (h : Agree view s.startLine t)
    : Agree view u (t.acceptAll (Token.ofLine line)) ∧ u.word = {} := by
  unfold scanLine at scanned
  cases stepped : s.startLine.steps limits line with
  | error stopped => simp [stepped] at scanned
  | ok reached =>
      simp only [stepped, Except.ok.injEq] at scanned
      subst scanned
      have read := steps_agree stepped rfl h
      have start : s.startLine.word = {} := idle
      rw [start] at read
      rw [Token.ofLine_eq_reading]
      exact ⟨read, reached.flushWord_spot.word⟩

theorem Agree.startLine (h : Agree id s t) : Agree id s.startLine t.startLine := by
  refine { h with line := ?_ }
  intro finding
  have same : s.lineNumber = t.lineNumber := by simpa using h.line finding
  simp only [Scanner.startLine, same]

theorem scanLines_agree {lines : List (List Char)} (scanned : s.scanLines limits lines = .ok u)
    (idle : s.word = {}) (h : Agree id s t)
    : Agree id u (t.acceptLines (lines.map Token.ofLine)) ∧ u.word = {} := by
  induction lines generalizing s t with
  | nil =>
      cases scanned
      exact ⟨h, idle⟩
  | cons line rest ih =>
      rw [scanLines] at scanned
      cases first : s.scanLine limits line with
      | error stopped => simp [first] at scanned
      | ok next =>
          simp only [first] at scanned
          obtain ⟨agrees, nextIdle⟩ := scanLine_agree first idle h.startLine
          exact ih scanned nextIdle agrees

/-- Where reports do not show their line, the division into lines does not matter. -/
theorem scanLines_agree_flat {lines : List (List Char)} (h : Agree view s t)
    (unplaced : ∀ n m finding, view (.atLine n finding) = view (.atLine m finding))
    (scanned : s.scanLines limits lines = .ok u) (idle : s.word = {})
    : Agree view u (t.acceptAll (lines.map Token.ofLine).flatten) ∧ u.word = {} := by
  induction lines generalizing s t with
  | nil =>
      cases scanned
      exact ⟨h, idle⟩
  | cons line rest ih =>
      rw [scanLines] at scanned
      cases first : s.scanLine limits line with
      | error stopped => simp [first] at scanned
      | ok next =>
          simp only [first] at scanned
          have started : Agree view s.startLine t := { h with line := fun f => unplaced _ _ f }
          obtain ⟨agrees, nextIdle⟩ := scanLine_agree first idle started
          rw [List.map_cons, List.flatten_cons, acceptAll_append]
          exact ih agrees scanned nextIdle

theorem Agree.closingWarnings (h : Agree view s t)
    : s.closingWarnings = t.closingWarnings := by
  unfold Scanner.closingWarnings
  rw [h.openLists]
  rcases h.blocks with ⟨hs, ht⟩ | ⟨b, c, hs, ht, name, _⟩
  · rw [hs, ht]
  · simp [hs, ht, name]

theorem Agree.finish (h : Agree view s t) (sIdle : s.word = {}) (tIdle : t.word = {})
    : Agree view s.finish t.finish := by
  have sDone : s.flushWord = s := flushWord_of_empty (by simp [sIdle, Buffer.isEmpty])
  have tDone : t.flushWord = t := flushWord_of_empty (by simp [tIdle, Buffer.isEmpty])
  simp only [Scanner.finish, sDone, tDone]
  refine { h with warnings := ?_ }
  simp [h.warnings, h.closingWarnings]

theorem capture_unlimited (s : Scanner) (c : Char) : ∃ u, s.capture {} c = .ok u := by
  rw [capture_cases]
  split
  · exact ⟨_, rfl⟩
  · split
    · exact ⟨_, rfl⟩
    · exact ⟨_, rfl⟩

theorem steps_unlimited (s : Scanner) (cs : List Char) : ∃ u, s.steps {} cs = .ok u := by
  induction cs generalizing s with
  | nil => exact ⟨s, rfl⟩
  | cons c rest ih =>
      obtain ⟨next, captured⟩ := s.capture_unlimited c
      have stepped : ∃ u, s.step {} c rest.head? = .ok u := by
        simp only [step, captured, classify, extendWord_eq, Buffer.wordOverflow?]
        split
        · exact ⟨_, rfl⟩
        · split <;> exact ⟨_, rfl⟩
      obtain ⟨u, found⟩ := stepped
      rw [steps, found]
      exact ih u

theorem scanLines_unlimited (s : Scanner) (lines : List (List Char))
    : ∃ u, s.scanLines {} lines = .ok u := by
  induction lines generalizing s with
  | nil => exact ⟨s, rfl⟩
  | cons line rest ih =>
      obtain ⟨u, stepped⟩ := s.startLine.steps_unlimited line
      rw [scanLines, scanLine, stepped]
      exact ih u.flushWord

end ShaderReflection.Scanner
