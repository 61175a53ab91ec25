import ShaderReflection.OrderedMap.Lemmas
import ShaderReflection.Proofs.Scanner.Effects

/-! Scans that agree on all but the captured text. What a token does depends on nothing else, so
agreement survives every token.
-/

namespace ShaderReflection

/-- Where a block is: the section that it belongs to and the brace depth outside it. -/
def Block.place (block : Block) : Section × Nat :=
  (block.name, block.outerDepth)

namespace Scanner

/-- Two scans agree on everything that tokens act on: the collected declarations, the closed
sections, the warnings as far as `view` shows them, and the position in the text. They may differ
in captured text, in the pending word and in comments.
-/
structure Agree {α : Type} (view : Warning → α) (s t : Scanner) : Prop where
  depth : s.depth = t.depth
  place : s.block.map Block.place = t.block.map Block.place
  openLists : s.openLists = t.openLists
  statement : s.statement = t.statement
  parameter : s.parameter = t.parameter
  declarations : s.declarations = t.declarations
  sourceKeys : s.sources.keys = t.sources.keys
  warnings : s.warnings.toList.map view = t.warnings.toList.map view
  /-- Findings are reported alike from here on. -/
  line : ∀ finding, view (.atLine s.lineNumber finding) = view (.atLine t.lineNumber finding)

variable {α : Type} {view : Warning → α} {s t u : Scanner}

theorem Agree.refl (view : Warning → α) (s : Scanner) : Agree view s s :=
  ⟨rfl, rfl, rfl, rfl, rfl, rfl, rfl, rfl, fun _ => rfl⟩

theorem Agree.symm (h : Agree view s t) : Agree view t s :=
  ⟨h.depth.symm, h.place.symm, h.openLists.symm, h.statement.symm, h.parameter.symm,
    h.declarations.symm, h.sourceKeys.symm, h.warnings.symm, fun f => (h.line f).symm⟩

theorem Agree.trans (h : Agree view s t) (k : Agree view t u) : Agree view s u :=
  ⟨h.depth.trans k.depth, h.place.trans k.place, h.openLists.trans k.openLists,
    h.statement.trans k.statement, h.parameter.trans k.parameter,
    h.declarations.trans k.declarations, h.sourceKeys.trans k.sourceKeys,
    h.warnings.trans k.warnings, fun f => (h.line f).trans (k.line f)⟩

/-- Agreeing scans are both outside all blocks, or both inside blocks at the same place. -/
theorem Agree.blocks (h : Agree view s t)
    : (s.block = none ∧ t.block = none)
      ∨ ∃ b c, s.block = some b ∧ t.block = some c
          ∧ b.name = c.name ∧ b.outerDepth = c.outerDepth := by
  have place := h.place
  cases hs : s.block with
  | none =>
      cases ht : t.block with
      | none => exact Or.inl ⟨rfl, rfl⟩
      | some c => simp [hs, ht] at place
  | some b =>
      cases ht : t.block with
      | none => simp [hs, ht] at place
      | some c =>
          simp only [hs, ht, Option.map_some, Option.some.injEq, Block.place, Prod.mk.injEq]
            at place
          exact Or.inr ⟨b, c, rfl, rfl, place.1, place.2⟩

theorem Agree.report (h : Agree view s t) (finding : Finding)
    : Agree view (s.report finding) (t.report finding) := by
  refine { h with warnings := ?_ }
  simp only [Scanner.report, Array.toList_push, List.map_append, List.map_cons, List.map_nil,
    h.warnings, h.line]

theorem Agree.reportAll (h : Agree view s t) (findings : List Finding)
    : Agree view (s.reportAll findings) (t.reportAll findings) := by
  induction findings generalizing s t with
  | nil => exact h
  | cons finding rest ih => exact ih (h.report finding)

theorem Agree.keep (h : Agree view s t) (name : Section) (d : Declaration)
    : Agree view (s.keep name d) (t.keep name d) := by
  unfold Scanner.keep
  split
  · exact h
  · exact { h with declarations := by simp only [h.declarations] }

theorem Agree.interpret (h : Agree view s t) (name : Section) (keywords : List Keyword)
    : Agree view (s.interpret name keywords) (t.interpret name keywords) := by
  unfold Scanner.interpret
  split
  · exact h
  · exact (h.reportAll _).keep name _

/-- A finished statement reaches agreeing scans alike: both are at the same place, so either both
read it as a declaration or neither does.
-/
theorem Agree.finishStatement (h : Agree view s t)
    : Agree view s.finishStatement t.finishStatement := by
  have cleared : Agree view { s with statement := {} } { t with statement := {} } :=
    { h with statement := rfl }
  rcases h.blocks with ⟨hs, ht⟩ | ⟨b, c, hs, ht, name, outer⟩
  · rw [finishStatement_outside hs, finishStatement_outside ht]
    exact cleared
  · rw [finishStatement_inside hs, finishStatement_inside ht, h.statement, name]
    have sameHeight : s.depth = b.outerDepth + 1 ↔ t.depth = c.outerDepth + 1 := by
      rw [h.depth, outer]
    by_cases directly : t.depth = c.outerDepth + 1
    · rw [if_pos directly, if_pos (sameHeight.mpr directly)]
      exact cleared.interpret c.name _
    · rw [if_neg directly, if_neg (directly ∘ sameHeight.mp)]
      exact cleared

theorem Agree.enterBlock (h : Agree view s t) (name : Section)
    : Agree view (s.enterBlock name) (t.enterBlock name) := by
  unfold Scanner.enterBlock
  simp only [h.declarations]
  split
  · have told := h.report (.repeatedSection name)
    exact { told with place := by simp [Block.place, told.depth] }
  · exact { h with place := by simp [Block.place, h.depth], declarations := rfl }

/-- Leaving blocks of one section closes that section in both scans, with texts that may differ. -/
theorem Agree.leaveBlock (h : Agree view s t) {b c : Block} (name : b.name = c.name)
    : Agree view (s.leaveBlock b) (t.leaveBlock c) := by
  unfold Scanner.leaveBlock
  refine { h with place := rfl, sourceKeys := ?_ }
  simp only [OrderedMap.keys_insert, h.sourceKeys, name]

theorem Agree.enteredSection? (h : Agree view s t) : s.enteredSection? = t.enteredSection? := by
  unfold Scanner.enteredSection?
  rcases h.blocks with ⟨hs, ht⟩ | ⟨b, c, hs, ht, _, _⟩
  · simp only [hs, ht, h.statement]
  · simp only [hs, ht]

theorem Agree.openBrace (h : Agree view s t) : Agree view s.openBrace t.openBrace := by
  have deeper {s t : Scanner} (h : Agree view s t)
      : Agree view { s with depth := s.depth + 1 } { t with depth := t.depth + 1 } :=
    { h with depth := congrArg (· + 1) h.depth }
  cases entered : t.enteredSection? with
  | none =>
      rw [openBrace_nested entered, openBrace_nested (h.enteredSection?.trans entered)]
      exact deeper h.finishStatement
  | some name =>
      rw [openBrace_entering entered, openBrace_entering (h.enteredSection?.trans entered)]
      exact deeper (h.enterBlock name).finishStatement

theorem Agree.closeBrace (h : Agree view s t) : Agree view s.closeBrace t.closeBrace := by
  have done := h.finishStatement
  by_cases unbalanced : t.depth = 0
  · rw [closeBrace_unbalanced unbalanced, closeBrace_unbalanced (h.depth.trans unbalanced)]
    exact done.report _
  · have shallower
        : Agree view { s.finishStatement with depth := s.depth - 1 }
            { t.finishStatement with depth := t.depth - 1 } :=
      { done with depth := congrArg (· - 1) h.depth }
    have balanced : s.depth ≠ 0 := h.depth ▸ unbalanced
    rcases h.blocks with ⟨hs, ht⟩ | ⟨b, c, hs, ht, name, outer⟩
    · rw [closeBrace_outside balanced hs, closeBrace_outside unbalanced ht]
      exact shallower
    · rw [closeBrace_inside balanced hs, closeBrace_inside unbalanced ht]
      have sameHeight : s.depth - 1 = b.outerDepth ↔ t.depth - 1 = c.outerDepth := by
        rw [h.depth, outer]
      by_cases closes : t.depth - 1 = c.outerDepth
      · rw [if_pos closes, if_pos (sameHeight.mpr closes)]
        exact shallower.leaveBlock name
      · rw [if_neg closes, if_neg (closes ∘ sameHeight.mp)]
        exact shallower

theorem Agree.commitParameter (h : Agree view s t)
    : Agree view s.commitParameter t.commitParameter := by
  unfold Scanner.commitParameter
  exact { h with statement := by simp only [h.parameter, h.statement], parameter := rfl }

theorem Agree.closeParenthesis (h : Agree view s t)
    : Agree view s.closeParenthesis t.closeParenthesis := by
  unfold Scanner.closeParenthesis
  by_cases unmatched : t.openLists = 0
  · rw [if_pos unmatched, if_pos (h.openLists.trans unmatched)]
    exact h.report _
  · rw [if_neg unmatched, if_neg (h.openLists ▸ unmatched)]
    have done := h.commitParameter
    exact { done with openLists := congrArg (· - 1) done.openLists }

theorem Agree.comma (h : Agree view s t) : Agree view s.comma t.comma := by
  unfold Scanner.comma
  by_cases outside : t.openLists = 0
  · rw [if_pos outside, if_pos (h.openLists.trans outside)]
    exact h
  · rw [if_neg outside, if_neg (h.openLists ▸ outside)]
    exact h.commitParameter

theorem Agree.equals (h : Agree view s t) : Agree view s.equals t.equals := by
  unfold Scanner.equals
  by_cases outside : t.openLists = 0
  · rw [if_pos outside, if_pos (h.openLists.trans outside)]
    exact { h with statement := by simp only [h.statement] }
  · rw [if_neg outside, if_neg (h.openLists ▸ outside)]
    exact { h with parameter := by simp only [h.parameter] }

theorem Agree.acceptWord (h : Agree view s t) (word : String)
    : Agree view (s.acceptWord word) (t.acceptWord word) := by
  unfold Scanner.acceptWord
  by_cases outside : t.openLists = 0
  · rw [if_pos outside, if_pos (h.openLists.trans outside)]
    exact { h with statement := by simp only [h.statement] }
  · rw [if_neg outside, if_neg (h.openLists ▸ outside)]
    exact { h with parameter := by simp only [h.parameter] }

/-- A token reaches agreeing scans alike, by cases on the token. -/
theorem Agree.accept (h : Agree view s t) (token : Token)
    : Agree view (s.accept token) (t.accept token) := by
  cases token with
  | word text => exact h.acceptWord text
  | mark mark =>
      cases mark with
      | openBrace => exact h.openBrace
      | closeBrace => exact h.closeBrace
      | openParenthesis =>
          exact { h with parameter := rfl, openLists := congrArg (· + 1) h.openLists }
      | closeParenthesis => exact h.closeParenthesis
      | comma => exact h.comma
      | semicolon => exact h.finishStatement
      | equals => exact h.equals

end Scanner

end ShaderReflection
