import ShaderReflection.Proofs.Scanner.Continuation

/-! The statements of a text that a scan records as declarations. What a section declares in the end
are the declarations recorded in its blocks, in the order of their statements.
-/

namespace ShaderReflection

/-- A statement that is recorded as a declaration of a section. -/
structure RecordedLine where
  name : Section
  keywords : List Keyword
  declaration : Declaration
deriving DecidableEq

namespace RecordedLine

/-- The declarations of a section among recorded statements. -/
def declarationsOf (name : Section) (lines : List RecordedLine) : List Declaration :=
  (lines.filter fun line => line.name = name).map declaration

theorem declarationsOf_append (name : Section) (lines others : List RecordedLine)
    : declarationsOf name (lines ++ others)
      = declarationsOf name lines ++ declarationsOf name others := by
  simp [declarationsOf]

theorem mem_declarationsOf {lines : List RecordedLine} {line : RecordedLine} (member : line ∈ lines)
    : line.declaration ∈ declarationsOf line.name lines :=
  List.mem_map.mpr ⟨line, by simp [member], rfl⟩

end RecordedLine

/-- Whether a mark ends a statement. -/
def Mark.endsStatement : Mark → Bool
  | .openBrace | .closeBrace | .semicolon => true
  | _ => false

namespace Scanner

open RecordedLine

variable {s : Scanner} {cs : List Char} {n : Nat} {name : Section}

/-- What is recorded if the statement ends here: a declaration with qualifiers, directly inside a
block. -/
def recorded? (s : Scanner) : Option RecordedLine :=
  match s.block with
  | none => none
  | some block =>
      if s.declares block then
        match Declaration.read? s.statement.keywords with
        | none => none
        | some reading =>
            if reading.declaration.qualifiers.isEmpty then none
            else
              some {
                name := block.name
                keywords := s.statement.keywords
                declaration := reading.declaration }
      else none

/-- What a character records, if it ends a statement. -/
def recordedBy? (s : Scanner) (c : Char) : Option RecordedLine :=
  if s.inComment then none
  else match Mark.ofChar? c with
    | none => none
    | some mark => if mark.endsStatement then s.flushWord.recorded? else none

/-- The statement that is recorded at a position of a text. -/
def recordedAt? (cs : List Char) (n : Nat) : Option RecordedLine :=
  cs[n]?.bind (upTo cs n).recordedBy?

/-- The statements that are recorded before a position. -/
def recordedBefore (cs : List Char) (n : Nat) : List RecordedLine :=
  (List.range n).filterMap (recordedAt? cs)

/-- The statements of a text that are recorded, in their order. -/
def recordedLines (cs : List Char) : List RecordedLine :=
  recordedBefore cs cs.length

theorem recordedBefore_succ (cs : List Char) (n : Nat)
    : recordedBefore cs (n + 1) = recordedBefore cs n ++ (recordedAt? cs n).toList := by
  rw [recordedBefore, List.range_succ, List.filterMap_append, recordedBefore]
  cases found : recordedAt? cs n <;> simp [found]

/-- The declaration of a recorded statement is what its keywords are read as. -/
theorem read?_of_recorded {line : RecordedLine} (recorded : line ∈ recordedLines cs)
    : ∃ reading,
        Declaration.read? line.keywords = some reading ∧ reading.declaration = line.declaration := by
  have ofState {s : Scanner} (ended : s.recorded? = some line)
      : ∃ reading,
          Declaration.read? line.keywords = some reading
          ∧ reading.declaration = line.declaration := by
    unfold recorded? at ended
    split at ended
    · cases ended
    · split at ended
      · split at ended
        · cases ended
        · next reading read =>
            split at ended
            · cases ended
            · cases ended
              exact ⟨reading, read, rfl⟩
      · cases ended
  obtain ⟨n, _, here⟩ := List.mem_filterMap.mp recorded
  obtain ⟨c, _, ends⟩ := Option.bind_eq_some_iff.mp here
  unfold recordedBy? at ends
  split at ends
  · cases ends
  · split at ends
    · cases ends
    · split at ends
      · exact ofState ends
      · cases ends

-----------------------------------------------------------------------------------------
-- What a mark records
-----------------------------------------------------------------------------------------

theorem finishStatement_declarations (h : s.Coherent) (name : Section)
    : s.finishStatement.declarations.getD name []
      = s.declarations.getD name [] ++ declarationsOf name s.recorded?.toList := by
  rcases Option.eq_none_or_eq_some s.block with outside | ⟨block, inside⟩
  · rw [finishStatement_outside outside, recorded?, outside]
    simp [declarationsOf]
  · rw [finishStatement_inside inside, recorded?, inside]
    by_cases directly : s.depth = block.outerDepth + 1
    · have declares : s.declares block = true := by simp [Scanner.declares, directly]
      simp only [if_pos directly, interpret, declares, if_true]
      cases Declaration.read? s.statement.keywords with
      | none => simp [declarationsOf]
      | some reading =>
          simp only [reportAll_eq, keep]
          cases reading.declaration.qualifiers.isEmpty with
          | true => simp [declarationsOf]
          | false =>
              simp only [Bool.false_eq_true, if_false, Option.toList_some]
              rw [OrderedMap.getD_modify_of_mem (h.entered block inside)]
              by_cases same : name = block.name
              · simp [declarationsOf, same]
              · simp [declarationsOf, same, Ne.symm same]
    · have deeper : s.declares block = false := by simp [Scanner.declares, directly]
      simp [if_neg directly, deeper, declarationsOf]

/-- An opening brace that enters a block records nothing, since it stands outside that block. -/
theorem openBrace_declarations (h : s.Coherent) (name : Section)
    : s.openBrace.declarations.getD name []
      = s.declarations.getD name [] ++ declarationsOf name s.recorded?.toList := by
  cases entered : s.enteredSection? with
  | none =>
      rw [openBrace_nested entered]
      exact finishStatement_declarations h name
  | some other =>
      have outside := outside_of_enteredSection? entered
      obtain ⟨warnings, inBlock⟩ := s.enterBlock_eq other
      have nothing : (s.enterBlock other).recorded? = none := by
        simp [inBlock, recorded?, declares]
      rw [openBrace_entering entered]
      change (s.enterBlock other).finishStatement.declarations.getD name [] = _
      rw [finishStatement_declarations (h.enterBlock other), nothing, inBlock, recorded?, outside]
      change (s.declarations.insertIfNew other []).getD name [] ++ _ = _
      rw [OrderedMap.getD_insertIfNew_nil]

theorem closeBrace_declarations (s : Scanner)
    : s.closeBrace.declarations = s.finishStatement.declarations := by
  by_cases unbalanced : s.depth = 0
  · rw [closeBrace_unbalanced unbalanced]
    rfl
  · rcases Option.eq_none_or_eq_some s.block with outside | ⟨block, inside⟩
    · rw [closeBrace_outside unbalanced outside]
    · rw [closeBrace_inside unbalanced inside]
      split <;> rfl

theorem acceptMark_declarations_of_plain {mark : Mark} (plain : mark.endsStatement = false)
    : (s.acceptMark mark).declarations = s.declarations := by
  cases mark with
  | openBrace => cases plain
  | closeBrace => cases plain
  | semicolon => cases plain
  | openParenthesis => rfl
  | closeParenthesis =>
      change s.closeParenthesis.declarations = _
      unfold closeParenthesis
      split <;> rfl
  | comma =>
      change s.comma.declarations = _
      unfold comma
      split <;> rfl
  | equals =>
      change s.equals.declarations = _
      unfold equals
      split <;> rfl

/-- A mark records the statement that it ends, by cases on the mark. -/
theorem acceptMark_declarations (h : s.Coherent) (mark : Mark) (name : Section)
    : (s.acceptMark mark).declarations.getD name []
      = s.declarations.getD name []
        ++ declarationsOf name (if mark.endsStatement then s.recorded? else none).toList := by
  cases ends : mark.endsStatement with
  | false =>
      rw [acceptMark_declarations_of_plain ends]
      exact (List.append_nil _).symm
  | true =>
      rw [if_pos rfl]
      cases mark with
      | openBrace => exact openBrace_declarations h name
      | closeBrace =>
          rw [acceptMark, closeBrace_declarations]
          exact finishStatement_declarations h name
      | semicolon => exact finishStatement_declarations h name
      | openParenthesis => cases ends
      | closeParenthesis => cases ends
      | comma => cases ends
      | equals => cases ends

-----------------------------------------------------------------------------------------
-- What a character records, and what a text records
-----------------------------------------------------------------------------------------

theorem flushWord_declarations (s : Scanner) : s.flushWord.declarations = s.declarations := by
  unfold flushWord
  split
  · rfl
  · unfold accept acceptWord
    split <;> rfl

theorem flushWord_captured (s : Scanner) (c : Char)
    : (s.captured c).flushWord = s.flushWord.captured c := by
  unfold flushWord
  have word : (s.captured c).word = s.word := rfl
  rw [word]
  split
  · rfl
  · unfold accept acceptWord captured
    dsimp only
    split <;> rfl

theorem recorded?_captured (s : Scanner) (c : Char) : (s.captured c).recorded? = s.recorded? := by
  unfold recorded? captured
  cases s.block with
  | none => rfl
  | some block =>
      obtain ⟨name, outerDepth⟩ := block.capture_place c
      simp only [Option.map_some, declares, name, outerDepth]
      rfl

theorem Coherent.captured (h : s.Coherent) (c : Char) : (s.captured c).Coherent := by
  have entered (block : Block) (place : (s.captured c).block = some block)
      : block.name ∈ s.declarations.keys := by
    obtain ⟨before, found, name, _⟩ := captured_block place
    rw [name]
    exact h.entered before found
  exact ⟨entered, h.closed, h.idle, h.declared, h.statement, h.parameter⟩

theorem recordedBy?_of_not_mark {c : Char} (plain : Mark.ofChar? c = none)
    : s.recordedBy? c = none := by
  unfold recordedBy?
  split
  · rfl
  · rw [plain]

/-- A character records the statement that it ends, by cases on its class. -/
theorem advance_declarations (h : s.Steady {}) (c : Char) (next : Option Char) (name : Section)
    : (s.advance c next).declarations.getD name []
      = s.declarations.getD name [] ++ declarationsOf name (s.recordedBy? c).toList := by
  have same {t : Scanner} (kept : t.declarations = s.declarations)
      (nothing : s.recordedBy? c = none)
      : t.declarations.getD name []
        = s.declarations.getD name [] ++ declarationsOf name (s.recordedBy? c).toList := by
    rw [kept, nothing]
    exact (List.append_nil _).symm
  have flushed : (s.captured c).flushWord.declarations = s.declarations :=
    (s.captured c).flushWord_declarations
  unfold advance
  by_cases lineBreak : c = '\n'
  · rw [if_pos lineBreak]
    exact same s.flushWord_declarations (recordedBy?_of_not_mark (by rw [lineBreak]; rfl))
  · rw [if_neg lineBreak]
    by_cases comment : s.inComment
    · rw [if_pos comment]
      exact same rfl (by rw [recordedBy?, if_pos comment])
    · rw [if_neg comment]
      cases kind : CharClass.of c next with
      | mark mark =>
          have isMark := CharClass.of_eq_mark_iff.mp kind
          have here : s.recordedBy? c
              = if mark.endsStatement then (s.captured c).flushWord.recorded? else none := by
            simp only [recordedBy?, comment, isMark, flushWord_captured, recorded?_captured]
            rfl
          have coherent : (s.captured c).flushWord.Coherent := by
            rw [flushWord_captured]
            exact h.flushWord.coherent.captured c
          rw [here, ← flushed]
          exact acceptMark_declarations coherent mark name
      | commentStart =>
          have slash := (CharClass.of_eq_commentStart_iff.mp kind).1
          exact same flushed (recordedBy?_of_not_mark (by rw [slash]; rfl))
      | separator =>
          have separates := CharClass.of_eq_separator_iff.mp kind
          exact same flushed
            (recordedBy?_of_not_mark (CharClass.ofChar?_of_isSeparator separates))
      | wordChar =>
          have inWord := (CharClass.of_eq_wordChar_iff.mp kind).1
          simp only [CharClass.isWordChar, Bool.and_eq_true, Option.isNone_iff_eq_none] at inWord
          exact same rfl (recordedBy?_of_not_mark inWord.1)

/-- At every position a section declares what was recorded for it before, by induction over the
positions.
-/
theorem declarations_upTo (cs : List Char) (n : Nat) (name : Section)
    : (upTo cs n).declarations.getD name [] = declarationsOf name (recordedBefore cs n) := by
  induction n with
  | zero => rfl
  | succ n ih =>
      rw [recordedBefore_succ, declarationsOf_append, ← ih, recordedAt?]
      cases found : cs[n]? with
      | none =>
          simp only [upTo, found]
          exact (List.append_nil _).symm
      | some c =>
          rw [upTo_succ found]
          exact advance_declarations (upTo_steady cs n).1 c cs[n + 1]? name

theorem declarations_ofText (text : String) (name : Section)
    : (ofText text).declarations.getD name [] = declarationsOf name (recordedLines text.toList) := by
  have kept (s : Scanner) : s.finish.declarations = s.declarations := s.flushWord_declarations
  rw [ofText, kept]
  exact declarations_upTo _ _ name

end Scanner

end ShaderReflection
