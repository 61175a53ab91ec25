import ShaderReflection.Proofs.OrderedMap.Entries
import ShaderReflection.Proofs.Scanner.Turns

/-! A scan that goes on where another one ended with nothing pending. It does what a scan from the
start does, and what it collects follows what was collected before.
-/

namespace ShaderReflection

namespace OrderedMap

variable {κ α : Type} [DecidableEq κ]

theorem getD_modify_of_mem {m : OrderedMap κ (List α)} {key : κ} (present : key ∈ m.keys)
    (added : List α) (other : κ)
    : (m.modify key (· ++ added)).getD other []
      = m.getD other [] ++ if other = key then added else [] := by
  rw [getD, getD, get?_modify]
  split
  · next same =>
      subst same
      obtain ⟨value, found⟩ := Option.isSome_iff_exists.mp ((get?_isSome_iff m other).mpr present)
      simp [found]
  · simp

theorem getD_insertIfNew_nil (m : OrderedMap κ (List α)) (key other : κ)
    : (m.insertIfNew key []).getD other [] = m.getD other [] := by
  rw [getD, getD, get?_insertIfNew]
  split
  · next same =>
      subst same
      rfl
  · rfl

theorem mem_keys_insertIfNew (m : OrderedMap κ α) (key : κ) (value : α) (other : κ)
    : other ∈ (m.insertIfNew key value).keys ↔ other ∈ m.keys ∨ other = key := by
  rw [keys_insertIfNew]
  split
  · next present =>
      constructor
      · exact Or.inl
      · rintro (old | rfl)
        · exact old
        · exact present
  · simp

end OrderedMap

namespace Scanner

/-- `s` goes on from `base` as `t` does from the start: it is at the same place with the same input
pending, and it has collected what `base` had, followed by what `t` has.
-/
structure Continues (base t s : Scanner) : Prop where
  depth : s.depth = t.depth
  block : s.block = t.block
  openLists : s.openLists = t.openLists
  word : s.word = t.word
  statement : s.statement = t.statement
  parameter : s.parameter = t.parameter
  inComment : s.inComment = t.inComment
  entered
    : ∀ block, t.block = some block
        → block.name ∈ s.declarations.keys ∧ block.name ∈ t.declarations.keys
  declarations
    : ∀ name, s.declarations.getD name []
        = base.declarations.getD name [] ++ t.declarations.getD name []
  sources
    : ∀ name, s.sources.get? name
        = Text.merge (base.sources.get? name) (t.sources.get? name)

variable {base s t : Scanner}

theorem Continues.withWarnings (h : Continues base t s) (one other : Array Warning)
    : Continues base { t with warnings := one } { s with warnings := other } :=
  { h with }

/-- A declaration of a section that both scans have entered is kept behind those before it. -/
theorem Continues.keep (h : Continues base t s) {name : Section}
    (present : name ∈ s.declarations.keys ∧ name ∈ t.declarations.keys) (d : Declaration)
    : Continues base (t.keep name d) (s.keep name d) := by
  unfold Scanner.keep
  split
  · exact h
  · refine { h with entered := ?_, declarations := ?_ }
    · intro block place
      simpa using h.entered block place
    · intro other
      dsimp only
      rw [OrderedMap.getD_modify_of_mem present.1, OrderedMap.getD_modify_of_mem present.2,
        h.declarations, List.append_assoc]

theorem Continues.finishStatement (h : Continues base t s)
    : Continues base t.finishStatement s.finishStatement := by
  have cleared : Continues base { t with statement := {} } { s with statement := {} } :=
    { h with statement := rfl }
  rcases Option.eq_none_or_eq_some t.block with outside | ⟨block, inside⟩
  · rw [finishStatement_outside outside, finishStatement_outside (h.block.trans outside)]
    exact cleared
  · rw [finishStatement_inside inside, finishStatement_inside (h.block.trans inside), h.statement]
    by_cases directly : t.depth = block.outerDepth + 1
    · rw [if_pos directly, if_pos (h.depth.trans directly)]
      unfold interpret
      split
      · exact cleared
      · rw [reportAll_eq, reportAll_eq]
        exact (cleared.withWarnings _ _).keep (h.entered block inside) _
    · rw [if_neg directly, if_neg (h.depth ▸ directly)]
      exact cleared

/-- Entering a block gives its section a list of declarations, if it has none yet. -/
theorem enterBlock_eq (s : Scanner) (name : Section)
    : ∃ warnings,
        s.enterBlock name
          = { s with
              declarations := s.declarations.insertIfNew name []
              block := some { name, outerDepth := s.depth }
              warnings } := by
  unfold enterBlock
  split
  · next known =>
      have present : name ∈ s.declarations.keys := by simpa [OrderedMap.contains] using known
      have same : s.declarations.insertIfNew name [] = s.declarations := by
        rw [OrderedMap.insertIfNew, dif_pos present]
      exact ⟨_, by rw [same]; rfl⟩
  · exact ⟨_, rfl⟩

theorem Continues.enterBlock (h : Continues base t s) (name : Section)
    : Continues base (t.enterBlock name) (s.enterBlock name) := by
  obtain ⟨_, there⟩ := t.enterBlock_eq name
  obtain ⟨_, here⟩ := s.enterBlock_eq name
  rw [there, here]
  refine { h with block := ?_, entered := ?_, declarations := ?_ }
  · rw [h.depth]
  · rintro block ⟨⟩
    exact ⟨(OrderedMap.mem_keys_insertIfNew ..).mpr (Or.inr rfl),
      (OrderedMap.mem_keys_insertIfNew ..).mpr (Or.inr rfl)⟩
  · intro other
    dsimp only
    rw [OrderedMap.getD_insertIfNew_nil, OrderedMap.getD_insertIfNew_nil]
    exact h.declarations other

/-- The source of a block that is left follows those before it, in both scans. -/
theorem Continues.leaveBlock (h : Continues base t s) (block : Block)
    : Continues base (t.leaveBlock block) (s.leaveBlock block) := by
  have sources (name : Section)
      : (s.leaveBlock block).sources.get? name
        = Text.merge (base.sources.get? name) ((t.leaveBlock block).sources.get? name) := by
    rw [leaveBlock_sources, leaveBlock_sources, h.sources]
    split
    · exact Text.merge_assoc ..
    · rfl
  exact { h with block := rfl, entered := by simp [Scanner.leaveBlock], sources }

theorem Continues.openBrace (h : Continues base t s) : Continues base t.openBrace s.openBrace := by
  have deeper {s t : Scanner} (h : Continues base t s)
      : Continues base { t with depth := t.depth + 1 } { s with depth := s.depth + 1 } :=
    { h with depth := congrArg (· + 1) h.depth }
  have same : s.enteredSection? = t.enteredSection? := by
    simp only [enteredSection?, h.block, h.statement]
  cases entered : t.enteredSection? with
  | none =>
      rw [openBrace_nested entered, openBrace_nested (same.trans entered)]
      exact deeper h.finishStatement
  | some name =>
      rw [openBrace_entering entered, openBrace_entering (same.trans entered)]
      exact deeper (h.enterBlock name).finishStatement

theorem Continues.closeBrace (h : Continues base t s)
    : Continues base t.closeBrace s.closeBrace := by
  have done := h.finishStatement
  by_cases unbalanced : t.depth = 0
  · rw [closeBrace_unbalanced unbalanced, closeBrace_unbalanced (h.depth.trans unbalanced)]
    exact done.withWarnings _ _
  · have balanced : s.depth ≠ 0 := h.depth ▸ unbalanced
    have higher
        : Continues base { t.finishStatement with depth := t.depth - 1 }
            { s.finishStatement with depth := s.depth - 1 } :=
      { done with depth := congrArg (· - 1) h.depth }
    rcases Option.eq_none_or_eq_some t.block with outside | ⟨block, inside⟩
    · rw [closeBrace_outside unbalanced outside,
        closeBrace_outside balanced (h.block.trans outside)]
      exact higher
    · rw [closeBrace_inside unbalanced inside, closeBrace_inside balanced (h.block.trans inside)]
      by_cases closes : t.depth - 1 = block.outerDepth
      · rw [if_pos closes, if_pos (h.depth ▸ closes)]
        exact higher.leaveBlock block
      · rw [if_neg closes, if_neg (h.depth ▸ closes)]
        exact higher

theorem Continues.commitParameter (h : Continues base t s)
    : Continues base t.commitParameter s.commitParameter := by
  unfold Scanner.commitParameter
  exact { h with statement := by simp only [h.parameter, h.statement], parameter := rfl }

theorem Continues.acceptWord (h : Continues base t s) (word : String)
    : Continues base (t.acceptWord word) (s.acceptWord word) := by
  unfold Scanner.acceptWord
  by_cases outside : t.openLists = 0
  · rw [if_pos outside, if_pos (h.openLists.trans outside)]
    exact { h with statement := by simp only [h.statement] }
  · rw [if_neg outside, if_neg (h.openLists ▸ outside)]
    exact { h with parameter := by simp only [h.parameter] }

theorem Continues.closeParenthesis (h : Continues base t s)
    : Continues base t.closeParenthesis s.closeParenthesis := by
  unfold Scanner.closeParenthesis
  by_cases unmatched : t.openLists = 0
  · rw [if_pos unmatched, if_pos (h.openLists.trans unmatched)]
    exact h.withWarnings _ _
  · rw [if_neg unmatched, if_neg (h.openLists ▸ unmatched)]
    have done := h.commitParameter
    exact { done with openLists := congrArg (· - 1) done.openLists }

theorem Continues.comma (h : Continues base t s) : Continues base t.comma s.comma := by
  unfold Scanner.comma
  by_cases outside : t.openLists = 0
  · rw [if_pos outside, if_pos (h.openLists.trans outside)]
    exact h
  · rw [if_neg outside, if_neg (h.openLists ▸ outside)]
    exact h.commitParameter

theorem Continues.equals (h : Continues base t s) : Continues base t.equals s.equals := by
  unfold Scanner.equals
  by_cases outside : t.openLists = 0
  · rw [if_pos outside, if_pos (h.openLists.trans outside)]
    exact { h with statement := by simp only [h.statement] }
  · rw [if_neg outside, if_neg (h.openLists ▸ outside)]
    exact { h with parameter := by simp only [h.parameter] }

/-- A mark does the same in both scans, by cases on the mark. -/
theorem Continues.acceptMark (h : Continues base t s) (mark : Mark)
    : Continues base (t.acceptMark mark) (s.acceptMark mark) := by
  cases mark with
  | openBrace => exact h.openBrace
  | closeBrace => exact h.closeBrace
  | openParenthesis =>
      exact { h with parameter := rfl, openLists := congrArg (· + 1) h.openLists }
  | closeParenthesis => exact h.closeParenthesis
  | comma => exact h.comma
  | semicolon => exact h.finishStatement
  | equals => exact h.equals

theorem Continues.flushWord (h : Continues base t s)
    : Continues base t.flushWord s.flushWord := by
  cases pending : t.word.isEmpty with
  | true =>
      rw [flushWord_of_empty pending, flushWord_of_empty (h.word ▸ pending)]
      exact h
  | false =>
      rw [flushWord_of_pending pending, flushWord_of_pending (h.word ▸ pending), h.word]
      have dropped : Continues base { t with word := {} } { s with word := {} } :=
        { h with word := rfl }
      exact dropped.acceptWord t.word.text

theorem Continues.startLine (h : Continues base t s)
    : Continues base t.startLine s.startLine :=
  { h with inComment := rfl }

theorem Continues.captured (h : Continues base t s) (c : Char)
    : Continues base (t.captured c) (s.captured c) := by
  refine { h with block := by simp only [Scanner.captured, h.block], entered := ?_ }
  intro block place
  obtain ⟨before, found, name, _⟩ := captured_block place
  rw [name]
  exact h.entered before found

/-- A character does the same in both scans, by cases on its class. -/
theorem Continues.advance (h : Continues base t s) (c : Char) (next : Option Char)
    : Continues base (t.advance c next) (s.advance c next) := by
  have captured := h.captured c
  unfold Scanner.advance
  split
  · exact h.flushWord.startLine
  · rw [h.inComment]
    split
    · exact captured
    · cases CharClass.of c next with
      | mark mark => exact captured.flushWord.acceptMark mark
      | commentStart => exact { captured.flushWord with inComment := rfl }
      | separator => exact captured.flushWord
      | wordChar => exact { captured with word := congrArg (Buffer.push · c) captured.word }

end Scanner

end ShaderReflection
