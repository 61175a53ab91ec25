import ShaderReflection.Proofs.Scanner.RecordedLines

/-! Warnings are only ever added to those before them. What is noticed at a recorded statement is
among them, so a scan without warnings has stored no declaration without a name.
-/

namespace ShaderReflection.Scanner

variable {s : Scanner} {cs : List Char} {m n : Nat} {line : RecordedLine}

-----------------------------------------------------------------------------------------
-- Tokens and characters only add warnings
-----------------------------------------------------------------------------------------

theorem report_warnings (s : Scanner) (finding : Finding)
    : s.warnings.toList <+: (s.report finding).warnings.toList := by
  rw [report, Array.toList_push]
  exact List.prefix_append _ _

theorem keep_warnings (s : Scanner) (name : Section) (d : Declaration)
    : (s.keep name d).warnings = s.warnings := by
  unfold keep
  split <;> rfl

theorem finishStatement_warnings (s : Scanner)
    : s.warnings.toList <+: s.finishStatement.warnings.toList := by
  rcases s.finishStatement_cases with dropped | ⟨block, reading, _, _, _, kept⟩
  · rw [dropped]
  · rw [kept, keep_warnings, Array.toList_appendList]
    exact List.prefix_append _ _

theorem enterBlock_warnings (s : Scanner) (name : Section)
    : s.warnings.toList <+: (s.enterBlock name).warnings.toList := by
  unfold enterBlock
  split
  · exact s.report_warnings _
  · exact List.prefix_rfl

theorem openBrace_warnings (s : Scanner)
    : s.warnings.toList <+: s.openBrace.warnings.toList := by
  cases entered : s.enteredSection? with
  | none =>
      rw [openBrace_nested entered]
      exact s.finishStatement_warnings
  | some name =>
      rw [openBrace_entering entered]
      exact (s.enterBlock_warnings name).trans (s.enterBlock name).finishStatement_warnings

/-- A closing brace warns of nothing but the statement that it ends and its own lack of balance. -/
theorem closeBrace_warnings (s : Scanner)
    : s.finishStatement.warnings.toList <+: s.closeBrace.warnings.toList := by
  by_cases unbalanced : s.depth = 0
  · rw [closeBrace_unbalanced unbalanced]
    exact s.finishStatement.report_warnings _
  · rcases Option.eq_none_or_eq_some s.block with outside | ⟨block, inside⟩
    · rw [closeBrace_outside unbalanced outside]
    · rw [closeBrace_inside unbalanced inside]
      split <;> exact List.prefix_rfl

/-- Tokens only add warnings, by cases on the token. -/
theorem accept_warnings (s : Scanner) (token : Token)
    : s.warnings.toList <+: (s.accept token).warnings.toList := by
  cases token with
  | word text =>
      simp only [accept, acceptWord]
      split <;> exact List.prefix_rfl
  | mark mark =>
      cases mark with
      | openBrace => exact s.openBrace_warnings
      | closeBrace => exact s.finishStatement_warnings.trans s.closeBrace_warnings
      | openParenthesis => exact List.prefix_rfl
      | closeParenthesis =>
          simp only [accept, acceptMark, closeParenthesis]
          split
          · exact s.report_warnings _
          · exact List.prefix_rfl
      | comma =>
          simp only [accept, acceptMark, comma]
          split <;> exact List.prefix_rfl
      | semicolon => exact s.finishStatement_warnings
      | equals =>
          simp only [accept, acceptMark, equals]
          split <;> exact List.prefix_rfl

theorem flushWord_warnings (s : Scanner) : s.flushWord.warnings = s.warnings := by
  unfold flushWord
  split
  · rfl
  · unfold accept acceptWord
    split <;> rfl

/-- Characters only add warnings, by cases on the class of the character. -/
theorem advance_warnings (s : Scanner) (c : Char) (next : Option Char)
    : s.warnings.toList <+: (s.advance c next).warnings.toList := by
  have flushed (t : Scanner) : t.warnings.toList <+: t.flushWord.warnings.toList := by
    rw [flushWord_warnings]
  unfold advance
  split
  · exact flushed s
  · split
    · exact List.prefix_rfl
    · cases CharClass.of c next with
      | mark mark => exact (flushed (s.captured c)).trans (accept_warnings _ _)
      | commentStart => exact flushed (s.captured c)
      | separator => exact flushed (s.captured c)
      | wordChar => exact List.prefix_rfl

theorem finish_warnings (s : Scanner) : s.warnings.toList <+: s.finish.warnings.toList := by
  have flushed := s.flushWord_warnings
  simp only [finish, flushed, Array.toList_appendList]
  exact List.prefix_append _ _

/-- From one position to a later one warnings are only added, by induction over the positions. -/
theorem upTo_warnings (before : m ≤ n)
    : (upTo cs m).warnings.toList <+: (upTo cs n).warnings.toList := by
  induction n, before using Nat.le_induction with
  | base => exact List.prefix_rfl
  | succ n _ ih =>
      apply ih.trans
      cases found : cs[n]? with
      | none => simp only [upTo, found, List.prefix_rfl]
      | some c =>
          rw [upTo_succ found]
          exact advance_warnings _ _ _

-----------------------------------------------------------------------------------------
-- Recorded statements are warned of
-----------------------------------------------------------------------------------------

theorem recorded?_eq_some (recorded : s.recorded? = some line)
    : ∃ block reading,
        s.block = some block
        ∧ line.name = block.name
        ∧ s.depth = block.outerDepth + 1
        ∧ Declaration.read? s.statement.keywords = some reading
        ∧ line.keywords = s.statement.keywords
        ∧ line.declaration = reading.declaration
        ∧ reading.declaration.qualifiers ≠ [] := by
  unfold recorded? at recorded
  split at recorded
  · cases recorded
  · next block inside =>
      split at recorded
      · next declares =>
          split at recorded
          · cases recorded
          · next reading read =>
              split at recorded
              · cases recorded
              · next qualified =>
                  cases recorded
                  refine ⟨block, reading, inside, rfl, ?_, read, rfl, rfl, by simpa using qualified⟩
                  simpa [Scanner.declares] using declares
      · cases recorded

/-- The warnings in which a recorded statement results are added when it ends. -/
theorem finishStatement_findings (recorded : s.recorded? = some line)
    : ∃ reading,
        Declaration.read? line.keywords = some reading
        ∧ reading.declaration = line.declaration
        ∧ reading.declaration.qualifiers ≠ []
        ∧ s.finishStatement.warnings.toList
          = s.warnings.toList ++ (findingsOf reading).map (.atLine s.lineNumber) := by
  obtain ⟨block, reading, inside, _, directly, read, keywords, declaration, qualified⟩ :=
    recorded?_eq_some recorded
  refine ⟨reading, keywords ▸ read, declaration.symm, qualified, ?_⟩
  rw [finishStatement_inside inside, if_pos directly]
  simp only [interpret, read, reportAll_eq, keep_warnings, Array.toList_appendList]

/-- A mark that ends a recorded statement adds the warnings of that statement. An opening brace that
enters a block ends no recorded one.
-/
theorem acceptMark_findings {mark : Mark} (ends : mark.endsStatement)
    (recorded : s.recorded? = some line)
    : s.finishStatement.warnings.toList <+: (s.acceptMark mark).warnings.toList := by
  cases mark with
  | openBrace =>
      obtain ⟨block, _, inside, _⟩ := recorded?_eq_some recorded
      have nested : s.enteredSection? = none := by simp only [enteredSection?, inside]
      rw [acceptMark, openBrace_nested nested]
  | closeBrace => exact s.closeBrace_warnings
  | semicolon => exact List.prefix_rfl
  | openParenthesis => cases ends
  | closeParenthesis => cases ends
  | comma => cases ends
  | equals => cases ends

/-- What is noticed at a statement is warned of where the statement is recorded. -/
theorem advance_findings {c : Char} (lineBreak : c ≠ '\n') (recorded : s.recordedBy? c = some line)
    (next : Option Char)
    : ∃ reading,
        Declaration.read? line.keywords = some reading
        ∧ reading.declaration = line.declaration
        ∧ reading.declaration.qualifiers ≠ []
        ∧ ∀ finding ∈ findingsOf reading,
            Warning.atLine s.lineNumber finding ∈ (s.advance c next).warnings.toList := by
  unfold recordedBy? at recorded
  split at recorded
  · cases recorded
  · next outside =>
      split at recorded
      · cases recorded
      · next mark isMark =>
          split at recorded
          · next ends =>
              have kind : CharClass.of c next = .mark mark := CharClass.of_eq_mark_iff.mpr isMark
              have here : (s.captured c).flushWord.recorded? = some line := by
                rw [flushWord_captured, recorded?_captured, recorded]
              obtain ⟨reading, read, declaration, qualified, warnings⟩ :=
                finishStatement_findings here
              refine ⟨reading, read, declaration, qualified, ?_⟩
              intro finding member
              have number : (s.captured c).flushWord.lineNumber = s.lineNumber :=
                (s.captured c).flushWord_spot.lineNumber
              rw [number] at warnings
              rw [advance, if_neg lineBreak, if_neg outside, kind]
              refine (acceptMark_findings ends here).subset ?_
              rw [warnings]
              exact List.mem_append_right _ (List.mem_map_of_mem member)
          · cases recorded

/-- Whatever is noticed at a recorded statement of a text is among the warnings of its scan. -/
theorem findings_warned {text : String} (recorded : line ∈ recordedLines text.toList)
    : ∃ reading,
        Declaration.read? line.keywords = some reading
        ∧ reading.declaration = line.declaration
        ∧ reading.declaration.qualifiers ≠ []
        ∧ ∀ finding ∈ findingsOf reading,
            ∃ number, Warning.atLine number finding ∈ (ofText text).warnings.toList := by
  obtain ⟨n, within, here⟩ := List.mem_filterMap.mp recorded
  obtain ⟨c, found, byChar⟩ := Option.bind_eq_some_iff.mp here
  have lineBreak : c ≠ '\n' := by
    rintro rfl
    simp [recordedBy?, Mark.ofChar?] at byChar
  obtain ⟨reading, read, declaration, qualified, warned⟩ :=
    advance_findings lineBreak byChar text.toList[n + 1]?
  refine ⟨reading, read, declaration, qualified, ?_⟩
  intro finding member
  have added := warned finding member
  rw [← upTo_succ found] at added
  have later := (upTo_warnings (List.mem_range.mp within)).subset added
  exact ⟨_, (finish_warnings _).subset later⟩

/-- A scan without warnings has stored no declaration without a name. -/
theorem named_of_quiet {text : String} (quiet : (ofText text).warnings = #[]) (name : Section)
    : ∀ d ∈ (ofText text).declarations.getD name [], d.name ≠ "" := by
  intro d declared nameless
  rw [declarations_ofText] at declared
  obtain ⟨line, member, rfl⟩ := List.mem_map.mp declared
  obtain ⟨reading, _, same, qualified, warned⟩ := findings_warned (List.mem_filter.mp member).1
  have lacks : reading.declaration.lacksName = true := by
    simp [Declaration.lacksName, same, nameless, same ▸ qualified]
  obtain ⟨number, among⟩ := warned (.missingIdentifier reading.declaration.type)
    (by simp [findingsOf, lacks])
  rw [quiet] at among
  exact absurd among List.not_mem_nil

end ShaderReflection.Scanner
