import ShaderReflection.Proofs.Scanner.Coherence

/-! What scans keep true between characters and between lines, whether a limit stops them or not.
A word that a stopped scan leaves behind cannot grow into a comment, because a buffer is full.
-/

namespace ShaderReflection.Scanner

open Text

/-- A limit admits no further character of the pending word, or none of the captured source. -/
def Full (limits : Limits) (s : Scanner) : Prop :=
  (s.word.wordOverflow? limits.word).isSome
  ∨ ∃ block, s.block = some block ∧ (block.source.sourceOverflow? limits.source).isSome

/-- The buffers of a scan keep to their limits, and what is captured to the characters of a source.
-/
structure Bounded (limits : Limits) (s : Scanner) : Prop where
  word : ∀ n, limits.word = some n → (s.word.size : Int) ≤ max n 0
  source
    : ∀ block, s.block = some block
        → ∀ n, limits.source = some n → (block.source.size : Int) ≤ max n 0
  captured
    : ∀ block, s.block = some block
        → ∀ c ∈ block.source.chars.toList, Buffer.isLeftOut c = false

/-- What holds between any two characters. -/
structure Steady (limits : Limits) (s : Scanner) : Prop where
  coherent : s.Coherent
  nested : s.Nested
  bounded : s.Bounded limits
  wordlike : Wordlike s.word.chars.toList
  skipping : s.inComment = true → s.word = {}

/-- The pending word makes no comment with the next character that could join it. -/
def Ready (limits : Limits) (next : Option Char) (s : Scanner) : Prop :=
  s.word.chars.toList.getLast? = some '/' → next = some '/' → s.Full limits

/-- What holds between any two lines or calls: a word is pending only where a buffer is full. -/
structure Resting (limits : Limits) (s : Scanner) : Prop extends Steady limits s where
  full : s.word.isEmpty = false → s.Full limits

/-- A run keeps one property if it goes through and leaves another if it is stopped. -/
def Ends (through stopped : Scanner → Prop) : Except Interruption Scanner → Prop
  | .ok s => through s
  | .error interruption => stopped interruption.scanner

variable {limits : Limits} {s : Scanner}

-----------------------------------------------------------------------------------------
-- Tokens and words
-----------------------------------------------------------------------------------------

/-- Blocks keep their source until they are left, and start without one. -/
theorem Bounded.accept (h : s.Bounded limits) (token : Token)
    : (s.accept token).Bounded limits := by
  have old {block : Block} (place : (s.accept token).block = some block)
      : s.block = some block ∨ block.source = {} := by
    cases s.accept_moves token with
    | stays same _ => exact Or.inl (same.symm.trans place)
    | deepens same _ => exact Or.inl (same.symm.trans place)
    | enters name _ entered _ =>
        cases entered.symm.trans place
        exact Or.inr rfl
    | rises same _ _ => exact Or.inl (same.symm.trans place)
    | leaves _ _ outside _ _ => cases outside.symm.trans place
  refine ⟨?_, ?_, ?_⟩
  · intro n limited
    rw [(s.accept_spot token).word]
    exact h.word n limited
  · intro block place n limited
    rcases old place with before | empty
    · exact h.source block before n limited
    · simp only [empty, Buffer.size, Array.size_empty]
      omega
  · intro block place c member
    rcases old place with before | empty
    · exact h.captured block before c member
    · simp [empty] at member

theorem Steady.accept (h : s.Steady limits) (token : Token) (wellFormed : token.WellFormed)
    : (s.accept token).Steady limits := by
  have spot := s.accept_spot token
  refine ⟨h.coherent.accept wellFormed, h.nested.accept token, h.bounded.accept token, ?_, ?_⟩
  · rw [spot.word]
    exact h.wordlike
  · rw [spot.word, spot.inComment]
    exact h.skipping

theorem Steady.dropWord (h : s.Steady limits) : { s with word := {} }.Steady limits where
  coherent := { h.coherent with }
  nested := h.nested
  bounded := { h.bounded with
    word := by
      intro n _
      simp only [Buffer.size, Array.size_empty]
      omega }
  wordlike := .nil
  skipping := fun _ => rfl

theorem Steady.flushWord (h : s.Steady limits) : s.flushWord.Steady limits := by
  cases pending : s.word.isEmpty with
  | true =>
      rw [flushWord_of_empty pending]
      exact h
  | false =>
      rw [flushWord_of_pending pending]
      have nonempty : s.word.chars.toList ≠ [] := by simpa [Buffer.isEmpty] using pending
      exact h.dropWord.accept (.word s.word.text) (isWord_ofList h.wordlike nonempty)

theorem Steady.resting (h : s.Steady limits) (idle : s.word = {}) : s.Resting limits :=
  { h with full := by simp [idle, Buffer.isEmpty] }

theorem ready_of_idle (idle : s.word = {}) (next : Option Char) : s.Ready limits next := by
  intro last
  simp [idle] at last

-----------------------------------------------------------------------------------------
-- Characters
-----------------------------------------------------------------------------------------

/-- A character is captured within the limit, or the captured source is full. -/
theorem Steady.capture (h : s.Steady limits) (c : Char)
    : Ends (fun u => u.Steady limits ∧ SameSpot u s) (fun u => u = s ∧ s.Full limits)
        (s.capture limits c) := by
  rw [capture_cases]
  split
  · exact ⟨h, .refl s⟩
  · next block place =>
      split
      · exact ⟨h, .refl s⟩
      · next kept =>
          split
          · next overflow full => exact ⟨rfl, Or.inr ⟨block, place, by simp [full]⟩⟩
          · next room =>
              refine ⟨⟨{ h.coherent with entered := ?_ }, ?_, { h.bounded with
                source := ?_
                captured := ?_ }, h.wordlike, h.skipping⟩, ⟨rfl, rfl, rfl⟩⟩
              · rintro b ⟨⟩
                exact h.coherent.entered block place
              · rintro b ⟨⟩
                exact h.nested block place
              · rintro b ⟨⟩ n limited
                simp only [Buffer.sourceOverflow?, limited] at room
                split at room
                · cases room
                · simp only [Buffer.size_push]
                  omega
              · rintro b ⟨⟩ d member
                rw [Buffer.toList_push] at member
                rcases List.mem_append.mp member with old | new
                · exact h.bounded.captured block place d old
                · rw [List.mem_singleton.mp new]
                  simpa using kept

/-- A character that is captured although the captured source is full separates words. -/
theorem capture_of_full {c : Char} {u : Scanner} (captured : s.capture limits c = .ok u)
    (full : s.Full limits)
    : (s.word.wordOverflow? limits.word).isSome ∨ CharClass.isSeparator c := by
  rcases full with word | ⟨block, place, source⟩
  · exact Or.inl word
  · rw [capture_cases] at captured
    simp only [place] at captured
    split at captured
    · next leftOut =>
        right
        simp only [Buffer.isLeftOut, Bool.or_eq_true, beq_iff_eq] at leftOut
        rcases leftOut with (rfl | rfl) | rfl <;> rfl
    · obtain ⟨overflow, found⟩ := Option.isSome_iff_exists.mp source
      simp [found] at captured

/-- A character outside comments ends the pending word or joins it. One that would make a comment
with it cannot join, for then a buffer is full.
-/
theorem Steady.classify (h : s.Steady limits) (outside : s.inComment = false) {c : Char}
    (ready
      : s.word.chars.toList.getLast? = some '/' → c = '/'
        → (s.word.wordOverflow? limits.word).isSome)
    (next : Option Char)
    : Ends (fun u => u.Steady limits ∧ u.Ready limits next) (fun u => u.Resting limits)
        (s.classify limits c next) := by
  unfold Scanner.classify
  cases kind : CharClass.of c next with
  | mark m =>
      have flushed := h.flushWord.accept (.mark m) trivial
      have there := (s.flushWord.accept_spot (.mark m)).trans s.flushWord_spot
      exact ⟨flushed, ready_of_idle there.word next⟩
  | commentStart =>
      have idle : s.flushWord.word = {} := s.flushWord_spot.word
      refine ⟨⟨{ h.flushWord.coherent with }, h.flushWord.nested, { h.flushWord.bounded with },
        h.flushWord.wordlike, fun _ => idle⟩, ready_of_idle idle next⟩
  | separator => exact ⟨h.flushWord, ready_of_idle s.flushWord_spot.word next⟩
  | wordChar =>
      obtain ⟨inWord, noComment⟩ := CharClass.of_eq_wordChar_iff.mp kind
      simp only [extendWord_eq]
      cases full : s.word.wordOverflow? limits.word with
      | some overflow => exact { h with full := fun _ => Or.inl (by simp [full]) }
      | none =>
          have separate : s.word.chars.toList.getLast? = some '/' → c ≠ '/' := by
            intro last slash
            simpa [full] using ready last slash
          have pushed : (s.word.push c).chars.toList = s.word.chars.toList ++ [c] :=
            Buffer.toList_push s.word c
          refine ⟨⟨{ h.coherent with }, h.nested, { h.bounded with word := ?_ }, ?_, ?_⟩, ?_⟩
          · intro n limited
            simp only [Buffer.wordOverflow?, limited] at full
            split at full
            · cases full
            · simp only [Buffer.size_push]
              omega
          · rw [pushed]
            exact h.wordlike.push inWord separate
          · intro comment
            exact absurd comment (by simp [outside])
          · intro last slash
            rw [pushed, List.getLast?_concat] at last
            exact absurd ⟨Option.some.inj last, slash⟩ noComment

/-- A character keeps a scan steady and ready for the next one, or leaves it resting. -/
theorem Steady.step (h : s.Steady limits) {c : Char} (ready : s.Ready limits (some c))
    (next : Option Char)
    : Ends (fun u => u.Steady limits ∧ u.Ready limits next) (fun u => u.Resting limits)
        (s.step limits c next) := by
  have outcome := h.capture c
  unfold Scanner.step
  cases captured : s.capture limits c with
  | error stopped =>
      rw [captured] at outcome
      obtain ⟨same, full⟩ := outcome
      exact { same ▸ h with full := fun _ => same ▸ full }
  | ok u =>
      rw [captured] at outcome
      obtain ⟨steady, spot⟩ := outcome
      dsimp only
      split
      · next comment => exact ⟨steady, ready_of_idle (steady.skipping comment) next⟩
      · next outside =>
          refine steady.classify (by simpa using outside) ?_ next
          rw [spot.word]
          intro last slash
          rcases capture_of_full captured (ready last (by rw [slash])) with full | separates
          · exact full
          · rw [slash] at separates
            cases separates

-----------------------------------------------------------------------------------------
-- Lines and texts
-----------------------------------------------------------------------------------------

theorem Steady.steps (h : s.Steady limits) {cs : List Char} (ready : s.Ready limits cs.head?)
    : Ends (fun u => u.Steady limits) (fun u => u.Resting limits) (s.steps limits cs) := by
  induction cs generalizing s with
  | nil => exact h
  | cons c rest ih =>
      have outcome := h.step ready rest.head?
      rw [Scanner.steps]
      cases stepped : s.step limits c rest.head? with
      | error stopped =>
          rw [stepped] at outcome
          exact outcome
      | ok u =>
          rw [stepped] at outcome
          exact ih outcome.1 outcome.2

theorem Resting.startLine_steady (h : s.Resting limits) : s.startLine.Steady limits where
  coherent := { h.coherent with }
  nested := h.nested
  bounded := { h.bounded with }
  wordlike := h.wordlike
  skipping := fun comment => by cases comment

theorem Resting.startLine_ready (h : s.Resting limits) (next : Option Char)
    : s.startLine.Ready limits next := by
  intro last _
  refine h.full ?_
  cases pending : s.word.isEmpty with
  | false => rfl
  | true =>
      have idle : s.startLine.word = {} := Buffer.isEmpty_iff.mp pending
      simp [idle] at last

/-- The end of a line leaves a scan resting, wherever its characters have left it. -/
theorem ends_flushWord {scanned : Except Interruption Scanner}
    (outcome : Ends (fun u => u.Steady limits) (fun u => u.Resting limits) scanned)
    : Ends (fun u => u.Resting limits) (fun u => u.Resting limits) (scanned.map flushWord) := by
  cases scanned with
  | error stopped => exact outcome
  | ok u => exact (Steady.flushWord outcome).resting u.flushWord_spot.word

theorem Resting.scanLine (h : s.Resting limits) (line : List Char)
    : Ends (fun u => u.Resting limits) (fun u => u.Resting limits) (s.scanLine limits line) := by
  have outcome := ends_flushWord (h.startLine_steady.steps (h.startLine_ready line.head?))
  unfold Scanner.scanLine
  cases stepped : s.startLine.steps limits line with
  | error stopped =>
      rw [stepped] at outcome
      exact outcome
  | ok u =>
      rw [stepped] at outcome
      exact outcome

theorem Resting.scanLines (h : s.Resting limits) (lines : List (List Char))
    : Ends (fun u => u.Resting limits) (fun u => u.Resting limits)
        (s.scanLines limits lines) := by
  induction lines generalizing s with
  | nil => exact h
  | cons line rest ih =>
      have outcome := h.scanLine line
      rw [Scanner.scanLines]
      cases scanned : s.scanLine limits line with
      | error stopped =>
          rw [scanned] at outcome
          exact outcome
      | ok u =>
          rw [scanned] at outcome
          exact ih outcome

theorem Resting.withWarnings (h : s.Resting limits) (warnings : Array Warning)
    : { s with warnings }.Resting limits where
  coherent := { h.coherent with }
  nested := h.nested
  bounded := { h.bounded with }
  wordlike := h.wordlike
  skipping := h.skipping
  full := h.full

theorem Resting.finish (h : s.Resting limits) : s.finish.Resting limits :=
  (h.toSteady.flushWord.resting s.flushWord_spot.word).withWarnings _

theorem Resting.scan (h : s.Resting limits) (text : String)
    : Ends (fun u => u.Resting limits) (fun u => u.Resting limits) (s.scan limits text) := by
  have outcome := h.scanLines (Text.lines text.toList)
  unfold Scanner.scan
  cases scanned : s.scanLines limits (Text.lines text.toList) with
  | error stopped =>
      rw [scanned] at outcome
      exact outcome
  | ok u =>
      rw [scanned] at outcome
      have resting : u.Resting limits := outcome
      exact resting.finish

theorem resting_start (limits : Limits) : ({} : Scanner).Resting limits := by
  refine Steady.resting ⟨⟨?_, ?_, ?_, ?_, ?_, ?_⟩, ?_, ⟨?_, ?_, ?_⟩, .nil, fun _ => rfl⟩ rfl
  · intro block place
    cases place
  · intro name member
    exact absurd member List.not_mem_nil
  · intro _
    rfl
  · intro e member
    exact absurd member List.not_mem_nil
  · intro k member
    exact absurd member List.not_mem_nil
  · exact ⟨Or.inl rfl, Or.inl rfl⟩
  · intro block place
    cases place
  · intro n _
    simp only [Buffer.size, Array.size_empty]
    omega
  · intro block place
    cases place
  · intro block place
    cases place

end ShaderReflection.Scanner
