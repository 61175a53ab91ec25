import ShaderReflection.Scanner.Run

/-! What each token does to a scan, said once as a case distinction with all that changes. -/

namespace ShaderReflection

theorem Buffer.isEmpty_iff {b : Buffer} : b.isEmpty ↔ b = {} := by
  cases b
  simp [isEmpty]

namespace Scanner

variable {s : Scanner}

-----------------------------------------------------------------------------------------
-- A statement adds at most one declaration, to the section of the block around it
-----------------------------------------------------------------------------------------

theorem reportAll_eq (s : Scanner) (findings : List Finding)
    : s.reportAll findings
      = { s with warnings := s.warnings ++ findings.map (Warning.atLine s.lineNumber) } := by
  induction findings generalizing s with
  | nil => simp [reportAll]
  | cons finding rest ih =>
      have next := ih (s.report finding)
      rw [reportAll] at next ⊢
      rw [List.foldl_cons, next]
      simp [report]

theorem finishStatement_outside (outside : s.block = none)
    : s.finishStatement = { s with statement := {} } := by
  simp only [finishStatement, outside]

/-- Inside a block a statement is read as a declaration only directly below the block's brace. -/
theorem finishStatement_inside {block : Block} (inside : s.block = some block)
    : s.finishStatement
      = if s.depth = block.outerDepth + 1 then
          { s with statement := {} }.interpret block.name s.statement.keywords
        else { s with statement := {} } := by
  simp only [finishStatement, inside, declares, beq_iff_eq]

/-- A finished statement is dropped, or read as a declaration of the section around it. -/
theorem finishStatement_cases (s : Scanner)
    : s.finishStatement = { s with statement := {} }
      ∨ ∃ block reading,
          s.block = some block
          ∧ s.depth = block.outerDepth + 1
          ∧ Declaration.read? s.statement.keywords = some reading
          ∧ s.finishStatement
            = { s with
                statement := {}
                warnings :=
                  s.warnings ++ (findingsOf reading).map (Warning.atLine s.lineNumber) }.keep
              block.name reading.declaration := by
  rcases Option.eq_none_or_eq_some s.block with outside | ⟨block, inside⟩
  · exact Or.inl (finishStatement_outside outside)
  · rw [finishStatement_inside inside]
    split
    · next directly =>
        cases read : Declaration.read? s.statement.keywords with
        | none => exact Or.inl (by simp only [interpret, read])
        | some reading =>
            refine Or.inr ⟨block, reading, inside, directly, rfl, ?_⟩
            simp only [interpret, read, reportAll_eq]
    · exact Or.inl rfl

/-- Everything but the collected declarations and warnings that a finished statement leaves. -/
structure Finished (s t : Scanner) : Prop where
  lineNumber : t.lineNumber = s.lineNumber
  depth : t.depth = s.depth
  block : t.block = s.block
  openLists : t.openLists = s.openLists
  word : t.word = s.word
  statement : t.statement = {}
  parameter : t.parameter = s.parameter
  inComment : t.inComment = s.inComment
  sources : t.sources = s.sources

theorem finished (s : Scanner) : Finished s s.finishStatement := by
  rcases s.finishStatement_cases with dropped | ⟨block, reading, _, _, _, kept⟩
  · rw [dropped]
    exact ⟨rfl, rfl, rfl, rfl, rfl, rfl, rfl, rfl, rfl⟩
  · rw [kept, keep]
    split <;> exact ⟨rfl, rfl, rfl, rfl, rfl, rfl, rfl, rfl, rfl⟩

-----------------------------------------------------------------------------------------
-- A brace may open or close the block of a section
-----------------------------------------------------------------------------------------

/-- Sections are entered only outside all blocks. -/
theorem outside_of_enteredSection? {name : Section} (entered : s.enteredSection? = some name)
    : s.block = none := by
  unfold enteredSection? at entered
  split at entered
  · cases entered
  · assumption

theorem openBrace_entering {name : Section} (entered : s.enteredSection? = some name)
    : s.openBrace
      = { (s.enterBlock name).finishStatement with
          depth := (s.enterBlock name).finishStatement.depth + 1 } := by
  simp only [openBrace, entered]

theorem openBrace_nested (nested : s.enteredSection? = none)
    : s.openBrace = { s.finishStatement with depth := s.finishStatement.depth + 1 } := by
  simp only [openBrace, nested]

theorem closeBrace_unbalanced (unbalanced : s.depth = 0)
    : s.closeBrace = s.finishStatement.report .unbalancedBrace := by
  simp only [closeBrace, s.finished.depth, unbalanced, if_true]

theorem closeBrace_outside (balanced : s.depth ≠ 0) (outside : s.block = none)
    : s.closeBrace = { s.finishStatement with depth := s.depth - 1 } := by
  simp only [closeBrace, s.finished.depth, s.finished.block, balanced, if_false, outside]

theorem closeBrace_inside (balanced : s.depth ≠ 0) {block : Block} (inside : s.block = some block)
    : s.closeBrace
      = if s.depth - 1 = block.outerDepth then
          { s.finishStatement with depth := s.depth - 1 }.leaveBlock block
        else { s.finishStatement with depth := s.depth - 1 } := by
  simp only [closeBrace, s.finished.depth, s.finished.block, balanced, if_false, inside]

/-- How a token can move a scan between blocks and depths: `t` is where it leads from `s`. -/
inductive Moves (s t : Scanner) : Prop
  | stays (block : t.block = s.block) (depth : t.depth = s.depth)
  | deepens (block : t.block = s.block) (depth : t.depth = s.depth + 1)
  | enters (name : Section) (outside : s.block = none)
    (block : t.block = some { name, outerDepth := s.depth }) (depth : t.depth = s.depth + 1)
  | rises (block : t.block = s.block) (depth : s.depth = t.depth + 1)
    (inner : ∀ around, s.block = some around → t.depth ≠ around.outerDepth)
  | leaves (around : Block) (inside : s.block = some around) (block : t.block = none)
    (depth : s.depth = t.depth + 1) (outer : t.depth = around.outerDepth)

theorem enterBlock_place (s : Scanner) (name : Section)
    : (s.enterBlock name).depth = s.depth
      ∧ (s.enterBlock name).block = some { name, outerDepth := s.depth } := by
  unfold enterBlock
  split <;> exact ⟨rfl, rfl⟩

theorem openBrace_moves (s : Scanner) : Moves s s.openBrace := by
  cases entered : s.enteredSection? with
  | none =>
      rw [openBrace_nested entered]
      exact .deepens s.finished.block (congrArg (· + 1) s.finished.depth)
  | some name =>
      have outside := outside_of_enteredSection? entered
      obtain ⟨depth, block⟩ := s.enterBlock_place name
      have done := (s.enterBlock name).finished
      rw [openBrace_entering entered]
      exact .enters name outside (done.block.trans block)
        (congrArg (· + 1) (done.depth.trans depth))

theorem closeBrace_moves (s : Scanner) : Moves s s.closeBrace := by
  by_cases unbalanced : s.depth = 0
  · rw [closeBrace_unbalanced unbalanced]
    exact .stays s.finished.block s.finished.depth
  · have shallower : s.depth = s.depth - 1 + 1 := by omega
    rcases Option.eq_none_or_eq_some s.block with outside | ⟨around, inside⟩
    · rw [closeBrace_outside unbalanced outside]
      exact .rises s.finished.block shallower (by simp [outside])
    · rw [closeBrace_inside unbalanced inside]
      split
      · next closes => exact .leaves around inside rfl shallower closes
      · next inner =>
          refine .rises s.finished.block shallower ?_
          intro block place
          rw [Option.some.inj (place.symm.trans inside)]
          exact inner

/-- Only braces move a scan, by cases on the token. -/
theorem accept_moves (s : Scanner) (token : Token) : Moves s (s.accept token) := by
  cases token with
  | word text =>
      simp only [accept, acceptWord]
      split <;> exact .stays rfl rfl
  | mark mark =>
      cases mark with
      | openBrace => exact s.openBrace_moves
      | closeBrace => exact s.closeBrace_moves
      | openParenthesis => exact .stays rfl rfl
      | closeParenthesis =>
          simp only [accept, acceptMark, closeParenthesis]
          split <;> exact .stays rfl rfl
      | comma =>
          simp only [accept, acceptMark, comma]
          split <;> exact .stays rfl rfl
      | semicolon => exact .stays s.finished.block s.finished.depth
      | equals =>
          simp only [accept, acceptMark, equals]
          split <;> exact .stays rfl rfl

-----------------------------------------------------------------------------------------
-- Tokens leave the pending word, comments and the line alone
-----------------------------------------------------------------------------------------

/-- Two scans stand at the same character: in the same line, with the same pending word, both in
a comment or both outside.
-/
structure SameSpot (s t : Scanner) : Prop where
  lineNumber : s.lineNumber = t.lineNumber
  word : s.word = t.word
  inComment : s.inComment = t.inComment

theorem SameSpot.refl (s : Scanner) : SameSpot s s :=
  ⟨rfl, rfl, rfl⟩

theorem SameSpot.trans {s t u : Scanner} (h : SameSpot s t) (k : SameSpot t u) : SameSpot s u :=
  ⟨h.lineNumber.trans k.lineNumber, h.word.trans k.word, h.inComment.trans k.inComment⟩

theorem finishStatement_spot (s : Scanner) : SameSpot s.finishStatement s :=
  ⟨s.finished.lineNumber, s.finished.word, s.finished.inComment⟩

theorem enterBlock_spot (s : Scanner) (name : Section) : SameSpot (s.enterBlock name) s := by
  unfold enterBlock
  split <;> exact ⟨rfl, rfl, rfl⟩

theorem openBrace_spot (s : Scanner) : SameSpot s.openBrace s := by
  cases entered : s.enteredSection? with
  | none =>
      rw [openBrace_nested entered]
      exact { s.finishStatement_spot with }
  | some name =>
      rw [openBrace_entering entered]
      have done := ((s.enterBlock name).finishStatement_spot).trans (s.enterBlock_spot name)
      exact { done with }

theorem closeBrace_spot (s : Scanner) : SameSpot s.closeBrace s := by
  refine SameSpot.trans ?_ s.finishStatement_spot
  by_cases unbalanced : s.depth = 0
  · rw [closeBrace_unbalanced unbalanced]
    exact ⟨rfl, rfl, rfl⟩
  · cases place : s.block with
    | none =>
        rw [closeBrace_outside unbalanced place]
        exact ⟨rfl, rfl, rfl⟩
    | some block =>
        rw [closeBrace_inside unbalanced place]
        split <;> exact ⟨rfl, rfl, rfl⟩

/-- No token moves the scan to another character, by cases on the token. -/
theorem accept_spot (s : Scanner) (token : Token) : SameSpot (s.accept token) s := by
  cases token with
  | word text =>
      simp only [accept, acceptWord]
      split <;> exact ⟨rfl, rfl, rfl⟩
  | mark mark =>
      cases mark with
      | openBrace => exact s.openBrace_spot
      | closeBrace => exact s.closeBrace_spot
      | openParenthesis => exact ⟨rfl, rfl, rfl⟩
      | closeParenthesis =>
          simp only [accept, acceptMark, closeParenthesis]
          split <;> exact ⟨rfl, rfl, rfl⟩
      | comma =>
          simp only [accept, acceptMark, comma]
          split <;> exact ⟨rfl, rfl, rfl⟩
      | semicolon => exact s.finishStatement_spot
      | equals =>
          simp only [accept, acceptMark, equals]
          split <;> exact ⟨rfl, rfl, rfl⟩

-----------------------------------------------------------------------------------------
-- Ending the pending word
-----------------------------------------------------------------------------------------

theorem flushWord_of_empty (empty : s.word.isEmpty) : s.flushWord = s := by
  rw [flushWord, if_pos empty]

theorem flushWord_of_pending (pending : s.word.isEmpty = false)
    : s.flushWord = { s with word := {} }.accept (.word s.word.text) := by
  simp only [flushWord, pending, Bool.false_eq_true, if_false]

/-- Ending a word leaves none pending and the scan at its character. -/
theorem flushWord_spot (s : Scanner) : SameSpot s.flushWord { s with word := {} } := by
  cases pending : s.word.isEmpty with
  | true =>
      rw [flushWord_of_empty pending]
      exact ⟨rfl, Buffer.isEmpty_iff.mp pending, rfl⟩
  | false =>
      rw [flushWord_of_pending pending]
      exact accept_spot _ _

end Scanner

end ShaderReflection
