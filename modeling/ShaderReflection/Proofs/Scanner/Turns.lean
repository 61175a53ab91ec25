import ShaderReflection.Proofs.Scanner.Positions
import ShaderReflection.Proofs.Text.Spans

/-! How each character of a text moves a scan between the blocks of sections and the depths of
braces.
-/

namespace ShaderReflection.Scanner

variable {s : Scanner} {c : Char}

/-- Two scans are at the same depth, inside the same block if any, with the same sources. -/
structure SamePlace (s t : Scanner) : Prop where
  block : s.block = t.block
  depth : s.depth = t.depth
  sources : s.sources = t.sources

theorem SamePlace.refl (s : Scanner) : SamePlace s s :=
  ⟨rfl, rfl, rfl⟩

theorem finishStatement_place (s : Scanner) : SamePlace s.finishStatement s :=
  ⟨s.finished.block, s.finished.depth, s.finished.sources⟩

theorem acceptWord_place (s : Scanner) (word : String) : SamePlace (s.acceptWord word) s := by
  unfold acceptWord
  split <;> exact ⟨rfl, rfl, rfl⟩

theorem flushWord_place (s : Scanner) : SamePlace s.flushWord s := by
  cases pending : s.word.isEmpty with
  | true =>
      rw [flushWord_of_empty pending]
      exact .refl s
  | false =>
      rw [flushWord_of_pending pending]
      have done := acceptWord_place { s with word := {} } s.word.text
      exact ⟨done.block, done.depth, done.sources⟩

theorem flushWord_openLists (s : Scanner) : s.flushWord.openLists = s.openLists := by
  unfold flushWord
  split
  · rfl
  · simp only [accept, acceptWord]
    split <;> rfl

theorem retract_push (source : Buffer) (c : Char) : ((source.push c).retract 1).text = source.text := by
  simp [Buffer.retract, Buffer.text, Buffer.push, Buffer.size]

/-- How a character that counts as `weight` moves a scan between blocks and depths: `t` is where it
leads from `s`. A block captures the character unless it is left with it.
-/
inductive Turn (s t : Scanner) (c : Char) : Int → Prop
  | stays (block : t.block = s.block.map (Block.capture · c)) (depth : t.depth = s.depth)
    (sources : t.sources = s.sources)
    : Turn s t c 0
  | deepens (block : t.block = s.block.map (Block.capture · c)) (depth : t.depth = s.depth + 1)
    (sources : t.sources = s.sources)
    : Turn s t c 1
  | enters (name : Section) (outside : s.block = none)
    (block : t.block = some { name, outerDepth := s.depth }) (depth : t.depth = s.depth + 1)
    (sources : t.sources = s.sources)
    : Turn s t c 1
  | ignored (block : t.block = s.block.map (Block.capture · c)) (lowest : s.depth = 0)
    (depth : t.depth = 0) (sources : t.sources = s.sources)
    : Turn s t c (-1)
  | rises (block : t.block = s.block.map (Block.capture · c)) (depth : s.depth = t.depth + 1)
    (inner : ∀ around, s.block = some around → t.depth ≠ around.outerDepth)
    (sources : t.sources = s.sources)
    : Turn s t c (-1)
  | leaves (around : Block) (inside : s.block = some around) (block : t.block = none)
    (depth : s.depth = t.depth + 1) (outer : t.depth = around.outerDepth)
    (sources
      : ∀ name, t.sources.get? name
          = if name = around.name then
              Text.merge (s.sources.get? name) (some around.source.text)
            else s.sources.get? name)
    : Turn s t c (-1)

theorem SamePlace.stays {t : Scanner} (place : SamePlace t (s.captured c)) : Turn s t c 0 :=
  .stays place.block place.depth place.sources

theorem enterBlock_sources (s : Scanner) (name : Section)
    : (s.enterBlock name).sources = s.sources := by
  unfold enterBlock
  split <;> rfl

/-- An opening brace deepens the scan, and enters a block only outside all blocks. -/
theorem openBrace_turn {u : Scanner} (place : SamePlace u (s.captured c)) : Turn s u.openBrace c 1 := by
  cases entered : u.enteredSection? with
  | none =>
      have done := u.finished
      rw [openBrace_nested entered]
      exact .deepens (done.block.trans place.block)
        (congrArg (· + 1) (done.depth.trans place.depth)) (done.sources.trans place.sources)
  | some name =>
      have outside : s.block = none := by
        have here := outside_of_enteredSection? entered
        exact Option.map_eq_none_iff.mp (place.block.symm.trans here)
      obtain ⟨depth, block⟩ := u.enterBlock_place name
      have done := (u.enterBlock name).finished
      have sameDepth : u.depth = s.depth := place.depth
      rw [openBrace_entering entered]
      refine .enters name outside ?_ ?_ ?_
      · exact (done.block.trans block).trans (by rw [sameDepth])
      · exact congrArg (· + 1) ((done.depth.trans depth).trans sameDepth)
      · exact (done.sources.trans (u.enterBlock_sources name)).trans place.sources

theorem leaveBlock_sources (s : Scanner) (block : Block) (name : Section)
    : (s.leaveBlock block).sources.get? name
      = if name = block.name then
          Text.merge (s.sources.get? name) (some (block.source.retract 1).text)
        else s.sources.get? name := by
  unfold leaveBlock
  rw [OrderedMap.get?_insert]
  split
  · next same =>
      subst same
      cases s.sources.get? block.name <;> rfl
  · rfl

/-- A closing brace is ignored at depth zero. Otherwise it makes the scan rise, and leaves the block
whose depth it reaches; that brace is captured and taken back.
-/
theorem closeBrace_turn {u : Scanner} (place : SamePlace u (s.captured '}'))
    : Turn s u.closeBrace '}' (-1) := by
  have done := u.finished
  have sameDepth : u.depth = s.depth := place.depth
  have sameSources : u.finishStatement.sources = s.sources := done.sources.trans place.sources
  by_cases lowest : u.depth = 0
  · rw [closeBrace_unbalanced lowest]
    exact .ignored (done.block.trans place.block) (sameDepth.symm.trans lowest)
      (done.depth.trans lowest) sameSources
  · have higher : s.depth = u.depth - 1 + 1 := by omega
    rcases Option.eq_none_or_eq_some s.block with outside | ⟨around, inside⟩
    · have here : u.block = none := by
        rw [place.block]
        simp only [captured, outside, Option.map_none]
      rw [closeBrace_outside lowest here]
      exact .rises (done.block.trans place.block) higher (by simp [outside]) sameSources
    · have here : u.block = some (around.capture '}') := by
        rw [place.block]
        simp only [captured, inside, Option.map_some]
      rw [closeBrace_inside lowest here]
      split
      · next closes =>
          refine .leaves around inside rfl higher closes ?_
          intro name
          have copied : (around.capture '}').source = around.source.push '}' := rfl
          rw [leaveBlock_sources, copied, retract_push]
          change (if name = around.name then
              Text.merge (u.finishStatement.sources.get? name) (some around.source.text)
            else u.finishStatement.sources.get? name) = _
          rw [sameSources]
      · next inner =>
          refine .rises (done.block.trans place.block) higher ?_ sameSources
          intro block found
          rw [Option.some.inj (found.symm.trans inside)]
          exact inner

/-- Marks other than braces stay in their place, by cases on the mark. -/
theorem acceptMark_turn {u : Scanner} {mark : Mark} (place : SamePlace u (s.captured c))
    (isMark : Mark.ofChar? c = some mark)
    : Turn s (u.acceptMark mark) c (Text.weight c) := by
  have trans {t : Scanner} (same : SamePlace t u) : SamePlace t (s.captured c) :=
    ⟨same.block.trans place.block, same.depth.trans place.depth, same.sources.trans place.sources⟩
  unfold Mark.ofChar? at isMark
  split at isMark <;> cases isMark
  · exact openBrace_turn place
  · exact closeBrace_turn place
  · exact (trans (t := u.openParenthesis) ⟨rfl, rfl, rfl⟩).stays
  · refine (trans (t := u.closeParenthesis) ?_).stays
    unfold closeParenthesis
    split <;> exact ⟨rfl, rfl, rfl⟩
  · refine (trans (t := u.comma) ?_).stays
    unfold comma
    split <;> exact ⟨rfl, rfl, rfl⟩
  · exact (trans u.finishStatement_place).stays
  · refine (trans (t := u.equals) ?_).stays
    unfold equals
    split <;> exact ⟨rfl, rfl, rfl⟩

theorem captured_of_leftOut (leftOut : Buffer.isLeftOut c) : s.captured c = s := by
  have same : s.block.map (Block.capture · c) = s.block := by
    simp [Block.capture, leftOut]
  unfold captured
  rw [same]

/-- Every character moves a scan by its weight, comments not at all. -/
theorem advance_turn (s : Scanner) (c : Char) (next : Option Char)
    : Turn s (s.advance c next) c (if s.inComment then 0 else Text.weight c) := by
  have flushed : SamePlace (s.captured c).flushWord (s.captured c) := flushWord_place _
  unfold advance
  by_cases lineBreak : c = '\n'
  · have weightless : (if s.inComment then 0 else Text.weight c) = 0 := by
      rw [lineBreak]
      split <;> rfl
    have same : s.captured c = s := captured_of_leftOut (by rw [lineBreak]; rfl)
    rw [same] at flushed
    rw [if_pos lineBreak, weightless]
    refine SamePlace.stays ?_
    rw [same]
    exact ⟨flushed.block, flushed.depth, flushed.sources⟩
  · rw [if_neg lineBreak]
    split
    · exact (SamePlace.refl _).stays
    · cases kind : CharClass.of c next with
      | mark mark => exact acceptMark_turn flushed (CharClass.of_eq_mark_iff.mp kind)
      | commentStart =>
          have slash := (CharClass.of_eq_commentStart_iff.mp kind).1
          subst slash
          exact SamePlace.stays ⟨flushed.block, flushed.depth, flushed.sources⟩
      | separator =>
          have separates := CharClass.of_eq_separator_iff.mp kind
          rw [Text.weight_of_not_mark (CharClass.ofChar?_of_isSeparator separates)]
          exact flushed.stays
      | wordChar =>
          have inWord := (CharClass.of_eq_wordChar_iff.mp kind).1
          simp only [CharClass.isWordChar, Bool.and_eq_true, Option.isNone_iff_eq_none] at inWord
          rw [Text.weight_of_not_mark inWord.1]
          exact SamePlace.stays ⟨rfl, rfl, rfl⟩

/-- A comment goes on to the end of its line, and two slashes start one. -/
theorem advance_inComment (s : Scanner) (c : Char) (next : Option Char)
    : (s.advance c next).inComment
      = (c != '\n' && (s.inComment || c == '/' && next == some '/')) := by
  unfold advance
  by_cases lineBreak : c = '\n'
  · simp [lineBreak, startLine]
  · rw [if_neg lineBreak]
    have spot : (s.captured c).flushWord.inComment = s.inComment :=
      (s.captured c).flushWord_spot.inComment
    cases comment : s.inComment with
    | true => simp [lineBreak, comment, captured]
    | false =>
        rw [comment] at spot
        cases kind : CharClass.of c next with
        | mark mark =>
            have isMark := CharClass.of_eq_mark_iff.mp kind
            have noSlash : c ≠ '/' := by
              rintro rfl
              cases isMark
            have kept := (accept_spot (s.captured c).flushWord (.mark mark)).inComment
            simp [react, noSlash, kept, spot]
        | commentStart =>
            obtain ⟨slash, next⟩ := CharClass.of_eq_commentStart_iff.mp kind
            simp [react, slash, next]
        | separator =>
            have separates := CharClass.of_eq_separator_iff.mp kind
            have noSlash : c ≠ '/' := by
              rintro rfl
              cases separates
            simp [react, noSlash, spot]
        | wordChar =>
            have noComment := (CharClass.of_eq_wordChar_iff.mp kind).2
            have same : (s.captured c).inComment = false := comment
            have plain : (c == '/' && next == some '/') = false := by simpa using noComment
            simp [react, same, plain]

/-- A word goes on with a word character, and it is kept in a comment. All else ends it. -/
theorem advance_word (s : Scanner) (c : Char) (next : Option Char)
    : (s.advance c next).word
      = if c = '\n' then {}
        else if s.inComment then s.word
        else match CharClass.of c next with
          | .wordChar => s.word.push c
          | _ => {} := by
  have ended : (s.captured c).flushWord.word = {} := (s.captured c).flushWord_spot.word
  unfold advance
  split
  · exact s.flushWord_spot.word
  · split
    · rfl
    · cases CharClass.of c next with
      | mark mark => exact (accept_spot _ _).word.trans ended
      | commentStart => exact ended
      | separator => exact ended
      | wordChar => rfl

end ShaderReflection.Scanner
