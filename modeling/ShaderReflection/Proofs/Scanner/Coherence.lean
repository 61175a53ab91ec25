import ShaderReflection.OrderedMap.Lemmas
import ShaderReflection.Proofs.Declaration.WellFormed
import ShaderReflection.Proofs.Scanner.Effects

/-! What tokens keep true of a scan: blocks lie inside their braces and belong to sections that were
entered, no parameter is pending outside parameter lists, and all that is collected is well-formed.
-/

namespace ShaderReflection

open Text

/-- A pending parameter has words for its name and its value, as far as they were read. -/
structure PendingParameter.WellFormed (p : PendingParameter) : Prop where
  name : p.name = "" ∨ IsWord p.name
  value : p.value = "" ∨ IsWord p.value

/-- A token as a line holds it. -/
def Token.WellFormed : Token → Prop
  | .word text => IsWord text
  | .mark _ => True

namespace Scanner

/-- What a scan has collected is coherent. -/
structure Coherent (s : Scanner) : Prop where
  entered : ∀ block, s.block = some block → block.name ∈ s.declarations.keys
  closed : ∀ name ∈ s.sources.keys, name ∈ s.declarations.keys
  idle : s.openLists = 0 → s.parameter = {}
  declared : ∀ e ∈ s.declarations.entries, ∀ d ∈ e.2, d.WellFormed
  statement : ∀ k ∈ s.statement.latestFirst, k.WellFormed
  parameter : s.parameter.WellFormed

/-- The block around the current position was opened by a brace that is still open. -/
def Nested (s : Scanner) : Prop :=
  ∀ block, s.block = some block → block.outerDepth < s.depth

variable {s : Scanner}

theorem Coherent.keep (h : s.Coherent) (name : Section) {d : Declaration}
    (wellFormed : d.qualifiers ≠ [] → d.WellFormed)
    : (s.keep name d).Coherent := by
  unfold Scanner.keep
  split
  · exact h
  · next qualified =>
      refine { h with entered := ?_, closed := ?_, declared := ?_ }
      · intro block place
        simpa using h.entered block place
      · intro key member
        simpa using h.closed key member
      · intro e member other among
        simp only [OrderedMap.modify, List.mem_map] at member
        obtain ⟨old, before, rfl⟩ := member
        split at among
        · rcases List.mem_append.mp among with older | new
          · exact h.declared old before other older
          · rw [List.mem_singleton.mp new]
            exact wellFormed (by simpa using qualified)
        · exact h.declared old before other among

/-- A finished statement keeps coherence, since it is read from well-formed keywords. -/
theorem Coherent.finishStatement (h : s.Coherent) : s.finishStatement.Coherent := by
  have keywords : ∀ k ∈ s.statement.keywords, k.WellFormed := by
    intro k member
    exact h.statement k (by simpa [Statement.keywords] using member)
  rcases s.finishStatement_cases with dropped | ⟨block, reading, _, _, read, kept⟩
  · rw [dropped]
    exact { h with statement := by simp }
  · rw [kept]
    refine Coherent.keep ?_ block.name (Declaration.read?_wellFormed keywords read)
    exact { h with statement := by simp }

theorem Coherent.enterBlock (h : s.Coherent) (name : Section) : (s.enterBlock name).Coherent := by
  unfold Scanner.enterBlock
  split
  · next known =>
      have listed : name ∈ s.declarations.keys := by simpa [OrderedMap.contains] using known
      refine { h with entered := ?_ }
      rintro block ⟨⟩
      exact listed
  · have grown (key : Section)
        : key ∈ (s.declarations.insertIfNew name []).keys
          ↔ key ∈ s.declarations.keys ∨ key = name := by
      rw [OrderedMap.keys_insertIfNew]
      split
      · next known =>
          constructor
          · exact Or.inl
          · rintro (old | rfl)
            · exact old
            · exact known
      · simp
    refine { h with entered := ?_, closed := ?_, declared := ?_ }
    · rintro block ⟨⟩
      exact (grown name).mpr (Or.inr rfl)
    · intro key member
      exact (grown key).mpr (Or.inl (h.closed key member))
    · intro e member d among
      rcases OrderedMap.mem_entries_insertIfNew member with old | rfl
      · exact h.declared e old d among
      · exact absurd among List.not_mem_nil

theorem Coherent.leaveBlock (h : s.Coherent) {block : Block}
    (known : block.name ∈ s.declarations.keys)
    : (s.leaveBlock block).Coherent := by
  unfold Scanner.leaveBlock
  refine { h with entered := by simp, closed := ?_ }
  intro key member
  simp only [OrderedMap.keys_insert] at member
  split at member
  · exact h.closed key member
  · rcases List.mem_append.mp member with old | new
    · exact h.closed key old
    · exact List.mem_singleton.mp new ▸ known

theorem Coherent.openBrace (h : s.Coherent) : s.openBrace.Coherent := by
  cases entered : s.enteredSection? with
  | none =>
      rw [openBrace_nested entered]
      exact { h.finishStatement with }
  | some name =>
      rw [openBrace_entering entered]
      exact { (h.enterBlock name).finishStatement with }

theorem Coherent.closeBrace (h : s.Coherent) : s.closeBrace.Coherent := by
  have done := h.finishStatement
  by_cases unbalanced : s.depth = 0
  · rw [closeBrace_unbalanced unbalanced]
    exact { done with }
  · have shallower : { s.finishStatement with depth := s.depth - 1 }.Coherent := { done with }
    rcases Option.eq_none_or_eq_some s.block with outside | ⟨block, inside⟩
    · rw [closeBrace_outside unbalanced outside]
      exact shallower
    · rw [closeBrace_inside unbalanced inside]
      split
      · exact shallower.leaveBlock (done.entered block (s.finished.block.trans inside))
      · exact shallower

/-- A parameter with a name goes to the last keyword, and none is pending afterwards. -/
theorem Coherent.commitParameter (h : s.Coherent) : s.commitParameter.Coherent := by
  unfold Scanner.commitParameter
  refine { h with idle := fun _ => rfl, statement := ?_, parameter := ⟨Or.inl rfl, Or.inl rfl⟩ }
  dsimp only
  split
  · exact h.statement
  · next named =>
      exact Statement.annotate_wellFormed h.statement (h.parameter.name.resolve_left named)
        h.parameter.value

theorem Coherent.acceptWord (h : s.Coherent) {word : String} (isWord : IsWord word)
    : (s.acceptWord word).Coherent := by
  unfold Scanner.acceptWord
  split
  · exact { h with statement := Statement.push_wellFormed h.statement (Or.inr isWord) }
  · next inList =>
      refine { h with idle := fun outside => absurd outside inList, parameter := ?_ }
      unfold PendingParameter.takeWord
      split
      · exact ⟨h.parameter.name, Or.inr isWord⟩
      · exact ⟨Or.inr isWord, h.parameter.value⟩

theorem Coherent.equals (h : s.Coherent) : s.equals.Coherent := by
  unfold Scanner.equals
  split
  · exact { h with statement := Statement.push_wellFormed h.statement (Or.inl rfl) }
  · next inList =>
      exact { h with
        idle := fun outside => absurd outside inList
        parameter := ⟨h.parameter.name, h.parameter.value⟩ }

/-- Tokens keep coherence, by cases on the token. -/
theorem Coherent.accept (h : s.Coherent) {token : Token} (wellFormed : token.WellFormed)
    : (s.accept token).Coherent := by
  cases token with
  | word text => exact h.acceptWord wellFormed
  | mark mark =>
      cases mark with
      | openBrace => exact h.openBrace
      | closeBrace => exact h.closeBrace
      | openParenthesis =>
          exact { h with
            idle := fun _ => rfl
            parameter := ⟨Or.inl rfl, Or.inl rfl⟩ }
      | closeParenthesis =>
          simp only [Scanner.accept, acceptMark, closeParenthesis]
          split
          · exact { h with }
          · exact { h.commitParameter with idle := fun _ => rfl }
      | comma =>
          simp only [Scanner.accept, acceptMark, comma]
          split
          · exact h
          · exact h.commitParameter
      | semicolon => exact h.finishStatement
      | equals => exact h.equals

/-- A block is entered at the depth at which its brace is opened, and left where that brace is
closed. So it always lies inside.
-/
theorem Nested.accept (h : s.Nested) (token : Token) : (s.accept token).Nested := by
  intro block place
  cases s.accept_moves token with
  | stays same depth =>
      rw [depth]
      exact h block (same.symm.trans place)
  | deepens same depth =>
      rw [depth]
      exact Nat.lt_succ_of_lt (h block (same.symm.trans place))
  | enters name _ entered depth =>
      cases entered.symm.trans place
      exact depth ▸ Nat.lt_succ_self s.depth
  | rises same depth inner =>
      have before := h block (same.symm.trans place)
      have different := inner block (same.symm.trans place)
      omega
  | leaves _ _ outside _ _ => cases outside.symm.trans place

end Scanner

end ShaderReflection
