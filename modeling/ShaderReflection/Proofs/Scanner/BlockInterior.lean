import ShaderReflection.Proofs.Printing.PrintedScan
import ShaderReflection.Proofs.Scanner.CollectedWarnings
import ShaderReflection.Proofs.Scanner.SectionBlocks

/-! Inside the blocks of a section. What a block declares depends on its tokens only, not on where
in a text it lies, how deep, and what was collected before it; and nothing else declares anything
for its section.
-/

namespace ShaderReflection

/-- Whether a token ends a statement. -/
def Token.endsStatement : Token → Bool
  | .word _ => false
  | .mark m => m.endsStatement

namespace Scanner

open Text

variable {name : Section} {s t : Scanner} {cs : List Char}

-----------------------------------------------------------------------------------------
-- What is pending
-----------------------------------------------------------------------------------------

/-- Two scans have the same input pending: the same statement, and the same parameter in as many
parameter lists. -/
structure SamePending (s t : Scanner) : Prop where
  openLists : s.openLists = t.openLists
  statement : s.statement = t.statement
  parameter : s.parameter = t.parameter

theorem SamePending.symm (h : SamePending s t) : SamePending t s :=
  ⟨h.openLists.symm, h.statement.symm, h.parameter.symm⟩

theorem SamePending.trans {u : Scanner} (h : SamePending s t) (k : SamePending t u)
    : SamePending s u :=
  ⟨h.openLists.trans k.openLists, h.statement.trans k.statement, h.parameter.trans k.parameter⟩

theorem finishStatement_pending (s : Scanner)
    : SamePending s.finishStatement { s with statement := {} } :=
  ⟨s.finished.openLists, s.finished.statement, s.finished.parameter⟩

/-- Braces end the statement, whatever block they enter or leave. -/
theorem accept_pending_of_ends {token : Token} (ends : token.endsStatement)
    : SamePending (s.accept token) { s with statement := {} } := by
  have done := s.finishStatement_pending
  cases token with
  | word text => cases ends
  | mark mark =>
      cases mark with
      | openBrace =>
          change SamePending s.openBrace _
          cases entered : s.enteredSection? with
          | none =>
              rw [openBrace_nested entered]
              exact { done with }
          | some name =>
              obtain ⟨warnings, inBlock⟩ := s.enterBlock_eq name
              rw [openBrace_entering entered, inBlock]
              exact { finishStatement_pending _ with }
      | closeBrace =>
          change SamePending s.closeBrace _
          by_cases unbalanced : s.depth = 0
          · rw [closeBrace_unbalanced unbalanced]
            exact { done with }
          · rcases Option.eq_none_or_eq_some s.block with outside | ⟨block, inside⟩
            · rw [closeBrace_outside unbalanced outside]
              exact { done with }
            · rw [closeBrace_inside unbalanced inside]
              split <;> exact { done with }
      | semicolon => exact done
      | openParenthesis => cases ends
      | closeParenthesis => cases ends
      | comma => cases ends
      | equals => cases ends

/-- What is pending behind a token depends on what was pending before it only, by cases on the
token.
-/
theorem SamePending.accept (h : SamePending s t) (token : Token)
    : SamePending (s.accept token) (t.accept token) := by
  obtain ⟨openLists, statement, parameter⟩ := h
  cases ends : token.endsStatement with
  | true =>
      refine (accept_pending_of_ends ends).trans (.trans ?_ (accept_pending_of_ends ends).symm)
      exact ⟨openLists, rfl, parameter⟩
  | false =>
      cases token with
      | word text =>
          simp only [Scanner.accept, acceptWord, openLists, statement, parameter]
          split <;> exact ⟨rfl, rfl, rfl⟩
      | mark mark =>
          cases mark with
          | openBrace => cases ends
          | closeBrace => cases ends
          | semicolon => cases ends
          | openParenthesis => exact ⟨congrArg (· + 1) openLists, statement, rfl⟩
          | closeParenthesis =>
              simp only [Scanner.accept, acceptMark, closeParenthesis, commitParameter, openLists,
                statement, parameter]
              split
              · exact ⟨openLists, statement, parameter⟩
              · exact ⟨rfl, rfl, rfl⟩
          | comma =>
              simp only [Scanner.accept, acceptMark, comma, commitParameter, openLists, statement,
                parameter]
              split
              · exact ⟨openLists, statement, parameter⟩
              · exact ⟨rfl, rfl, rfl⟩
          | equals =>
              simp only [Scanner.accept, acceptMark, equals, openLists, statement, parameter]
              split <;> exact ⟨rfl, rfl, rfl⟩

/-- A token that does not end a statement changes nothing but what is pending. -/
theorem accept_frame_of_plain {token : Token} (plain : token.endsStatement = false)
    : SamePlace (s.accept token) s ∧ (s.accept token).declarations = s.declarations := by
  cases token with
  | word text =>
      refine ⟨s.acceptWord_place text, ?_⟩
      simp only [accept, acceptWord]
      split <;> rfl
  | mark mark =>
      refine ⟨?_, acceptMark_declarations_of_plain plain⟩
      cases mark with
      | openBrace => cases plain
      | closeBrace => cases plain
      | semicolon => cases plain
      | openParenthesis => exact ⟨rfl, rfl, rfl⟩
      | closeParenthesis =>
          simp only [accept, acceptMark, closeParenthesis]
          split <;> exact ⟨rfl, rfl, rfl⟩
      | comma =>
          simp only [accept, acceptMark, comma]
          split <;> exact ⟨rfl, rfl, rfl⟩
      | equals =>
          simp only [accept, acceptMark, equals]
          split <;> exact ⟨rfl, rfl, rfl⟩

-----------------------------------------------------------------------------------------
-- A block read in a text, and on its own
-----------------------------------------------------------------------------------------

/-- `s` reads a block of a section somewhere in a text as `t` reads it on its own: they are equally
deep inside it and have the same input pending. For the section `s` has collected `earlier`, and
then what `t` has.
-/
structure InStep (name : Section) (earlier : List Declaration) (s t : Scanner) : Prop where
  place : ∃ block, s.block = some block ∧ block.name = name ∧ s.depth = block.outerDepth + t.depth
  alone : t.block = some { name, outerDepth := 0 }
  nested : 0 < t.depth
  pending : SamePending s t
  entered : name ∈ s.declarations.keys
  only : t.declarations.keys = [name]
  declarations : s.declarations.getD name [] = earlier ++ t.declarations.getD name []
  sources : t.sources = ∅

variable {earlier : List Declaration}

theorem InStep.withWarnings (h : InStep name earlier s t) (one other : Array Warning)
    : InStep name earlier { s with warnings := one } { t with warnings := other } :=
  { h with pending := { h.pending with } }

theorem InStep.keep (h : InStep name earlier s t) (d : Declaration)
    : InStep name earlier (s.keep name d) (t.keep name d) := by
  unfold Scanner.keep
  split
  · exact h
  · have own : name ∈ t.declarations.keys := by simp [h.only]
    refine { h with entered := ?_, only := ?_, declarations := ?_, pending := { h.pending with } }
    · simpa using h.entered
    · simpa using h.only
    · dsimp only
      rw [OrderedMap.getD_modify_of_mem h.entered, OrderedMap.getD_modify_of_mem own,
        h.declarations, List.append_assoc]

/-- A statement that ends is read as a declaration by both scans or by neither, since they are
equally deep.
-/
theorem InStep.finishStatement (h : InStep name earlier s t)
    : InStep name earlier s.finishStatement t.finishStatement := by
  obtain ⟨block, inside, named, depth⟩ := h.place
  have cleared : InStep name earlier { s with statement := {} } { t with statement := {} } :=
    { h with pending := { h.pending with statement := rfl } }
  rw [finishStatement_inside inside, finishStatement_inside h.alone, h.pending.statement, named]
  by_cases directly : t.depth = 1
  · rw [if_pos (by omega), if_pos (by simpa using directly)]
    unfold interpret
    split
    · exact cleared
    · rw [reportAll_eq, reportAll_eq]
      exact (cleared.withWarnings _ _).keep _
  · rw [if_neg (by omega), if_neg (by simpa using directly)]
    exact cleared

theorem InStep.openBrace (h : InStep name earlier s t)
    : InStep name earlier s.openBrace t.openBrace := by
  obtain ⟨block, inside, _⟩ := h.place
  have nested {u : Scanner} {around : Block} (place : u.block = some around)
      : u.enteredSection? = none := by
    simp only [enteredSection?, place]
  have done := h.finishStatement
  obtain ⟨around, found, named, depth⟩ := done.place
  rw [openBrace_nested (nested inside), openBrace_nested (nested h.alone)]
  refine { done with place := ⟨around, found, named, ?_⟩, nested := ?_, pending := ?_ }
  · exact congrArg (· + 1) depth
  · exact Nat.succ_pos _
  · exact { done.pending with }

/-- A closing brace that does not close the block in the text does not close it on its own. -/
theorem InStep.closeBrace (h : InStep name earlier s t) (stays : s.closeBrace.block ≠ none)
    : InStep name earlier s.closeBrace t.closeBrace := by
  obtain ⟨block, inside, _, depth⟩ := h.place
  have done := h.finishStatement
  obtain ⟨around, found, named, _⟩ := done.place
  cases found.symm.trans (s.finished.block.trans inside)
  have nested := h.nested
  rw [closeBrace_inside (by omega) inside] at stays ⊢
  rw [closeBrace_inside (by omega) h.alone]
  by_cases closes : t.depth = 1
  · rw [if_pos (by omega)] at stays
    exact absurd rfl stays
  · rw [if_neg (by omega), if_neg (by dsimp only; omega)]
    refine { done with place := ⟨block, found, named, ?_⟩, nested := ?_, pending := ?_ }
    · dsimp only
      omega
    · dsimp only
      omega
    · exact { done.pending with }

/-- A token that leaves the scan in its block does the same on its own. -/
theorem InStep.accept (h : InStep name earlier s t) (token : Token)
    (stays : (s.accept token).block ≠ none)
    : InStep name earlier (s.accept token) (t.accept token) := by
  cases ends : token.endsStatement with
  | false =>
      obtain ⟨here, declaredHere⟩ := accept_frame_of_plain (s := s) ends
      obtain ⟨there, declaredThere⟩ := accept_frame_of_plain (s := t) ends
      refine ⟨?_, there.block.trans h.alone, ?_, h.pending.accept token, ?_, ?_, ?_, ?_⟩
      · rw [here.block, here.depth, there.depth]
        exact h.place
      · exact there.depth ▸ h.nested
      · exact declaredHere ▸ h.entered
      · exact declaredThere ▸ h.only
      · rw [declaredHere, declaredThere]
        exact h.declarations
      · exact there.sources.trans h.sources
  | true =>
      cases token with
      | word text => cases ends
      | mark mark =>
          cases mark with
          | openBrace => exact h.openBrace
          | closeBrace => exact h.closeBrace stays
          | semicolon => exact h.finishStatement
          | openParenthesis => cases ends
          | closeParenthesis => cases ends
          | comma => cases ends
          | equals => cases ends

-----------------------------------------------------------------------------------------
-- From position to position
-----------------------------------------------------------------------------------------

/-- Fields that no token reads, and captured text, do not matter. -/
theorem InStep.of_hidden (h : InStep name earlier s t) (lineNumber : Nat) (word : Buffer)
    (inComment : Bool)
    : InStep name earlier { s with lineNumber, word, inComment } t :=
  { h with pending := { h.pending with } }

theorem InStep.captured (h : InStep name earlier s t) (c : Char)
    : InStep name earlier (s.captured c) t := by
  obtain ⟨block, inside, named, depth⟩ := h.place
  obtain ⟨sameName, sameDepth⟩ := block.capture_place c
  refine { h with place := ⟨block.capture c, ?_, ?_, ?_⟩, pending := { h.pending with } }
  · simp only [Scanner.captured, inside, Option.map_some]
  · exact sameName.trans named
  · rw [sameDepth]
    exact depth

/-- Ending the pending word is taking in the token that it becomes. -/
theorem InStep.flushWord (h : InStep name earlier s t)
    : InStep name earlier s.flushWord (t.acceptAll (Token.ofPending s.word.chars.toList)) := by
  cases pending : s.word.isEmpty with
  | true =>
      rw [flushWord_of_empty pending, Buffer.isEmpty_iff.mp pending]
      exact h
  | false =>
      have nonempty : s.word.chars.toList ≠ [] := by simpa [Buffer.isEmpty] using pending
      obtain ⟨block, inside, _⟩ := h.place
      have idle := h.of_hidden s.lineNumber {} s.inComment
      rw [flushWord_of_pending pending, Token.ofPending, if_neg nonempty]
      refine idle.accept (.word s.word.text) ?_
      rw [Scanner.accept, (acceptWord_place _ _).block, inside]
      exact Option.some_ne_none block

/-- A character that leaves the scan in its block leads on with the tokens that it completes. The
tokens from this place on are these and those from the next place on, by cases on the class of the
character.
-/
theorem InStep.advance {c : Char} {next : Option Char} {rest : List Char}
    (h : InStep name earlier s t) (stays : (s.advance c next).block ≠ none)
    (same : next = some '/' ↔ rest.head? = some '/')
    : ∃ u,
        InStep name earlier (s.advance c next) u
        ∧ t.acceptAll (Token.scanning s.inComment s.word.chars.toList (c :: rest))
          = u.acceptAll (Token.scanning (s.advance c next).inComment
              (s.advance c next).word.chars.toList rest) := by
  have ended : s.flushWord.word = {} := s.flushWord_spot.word
  have captured := h.captured c
  have flushed := captured.flushWord
  have spot := (s.captured c).flushWord_spot
  rw [Token.scanning]
  unfold Scanner.advance at stays ⊢
  by_cases lineBreak : c = '\n'
  · simp only [if_pos lineBreak, acceptAll_append]
    exact ⟨_, h.flushWord.of_hidden _ _ false, by rw [startLine, ended]⟩
  · simp only [if_neg lineBreak] at stays ⊢
    cases comment : s.inComment with
    | true =>
        simp only [if_true]
        exact ⟨t, captured, by rw [← comment]; rfl⟩
    | false =>
        simp only [comment, Bool.false_eq_true, if_false] at stays ⊢
        rw [CharClass.of_congr_next fun _ => same] at stays ⊢
        have code : (s.captured c).flushWord.inComment = false := spot.inComment.trans comment
        cases kind : CharClass.of c rest.head? with
        | mark mark =>
            simp only [kind, react] at stays ⊢
            have there := accept_spot (s.captured c).flushWord (.mark mark)
            refine ⟨_, flushed.accept (.mark mark) stays, ?_⟩
            rw [there.inComment, there.word, spot.word, code, acceptAll_append]
            rfl
        | commentStart =>
            simp only [react]
            refine ⟨_, flushed.of_hidden _ _ true, ?_⟩
            rw [spot.word, acceptAll_append]
            rfl
        | separator =>
            simp only [react]
            refine ⟨_, flushed, ?_⟩
            rw [code, spot.word, acceptAll_append]
            rfl
        | wordChar =>
            simp only [react]
            refine ⟨t, captured.of_hidden _ _ s.inComment, ?_⟩
            rw [Buffer.toList_push]
            change _ = t.acceptAll (Token.scanning s.inComment _ rest)
            rw [comment]
            rfl

/-- Along a stretch of a text that lies inside a block, the scan does what the tokens of that
stretch do on their own, by induction along the stretch.
-/
theorem InStep.run {p q : Nat} (h : InStep name earlier (upTo cs p) t) (forward : p ≤ q)
    (inText : q ≤ cs.length) (inside : ∀ m, p < m → m ≤ q → (upTo cs m).block ≠ none)
    (apart : cs[q]? ≠ some '/')
    : InStep name earlier (upTo cs q).flushWord
        (t.acceptAll (Token.scanning (upTo cs p).inComment (upTo cs p).word.chars.toList
          (slice cs p q))) := by
  induction stretch : slice cs p q generalizing p t with
  | nil =>
      have reached : q ≤ p := by
        have length := congrArg List.length stretch
        simp only [slice, List.length_drop, List.length_take, List.length_nil] at length
        omega
      obtain rfl := Nat.le_antisymm forward reached
      exact h.flushWord
  | cons c rest ih =>
      obtain ⟨within, behind⟩ := drop_eq_cons stretch
      obtain ⟨before, found⟩ : p < q ∧ cs[p]? = some c := by
        simpa [List.getElem?_take] using within
      -- Only behind the last character of the stretch does the text go on differently.
      have next : cs[p + 1]? = some '/' ↔ rest.head? = some '/' := by
        rw [← behind, List.head?_drop, List.getElem?_take]
        split
        · rfl
        · have last : p + 1 = q := by omega
          simp [last, apart]
      have stays := inside (p + 1) (by omega) before
      rw [upTo_succ found] at stays
      obtain ⟨u, led, tokens⟩ := h.advance stays next
      rw [← upTo_succ found] at led tokens
      rw [tokens]
      exact ih led before (fun m after => inside m (by omega)) behind

-----------------------------------------------------------------------------------------
-- From the entry of a block on
-----------------------------------------------------------------------------------------

/-- A scan directly inside a block that it has entered first of all. -/
structure Directly (name : Section) (t : Scanner) : Prop where
  block : t.block = some { name, outerDepth := 0 }
  depth : t.depth = 1
  only : t.declarations.keys = [name]
  sources : t.sources = ∅

theorem InStep.directly (h : InStep name earlier s t) (depth : t.depth = 1) : Directly name t :=
  ⟨h.alone, depth, h.only, h.sources⟩

/-- A mark outside comments ends the pending word and is taken in. -/
theorem upTo_succ_of_mark {n : Nat} {c : Char} {mark : Mark} (found : cs[n]? = some c)
    (isMark : Mark.ofChar? c = some mark) (code : Text.inComment cs n = false)
    : upTo cs (n + 1) = ((upTo cs n).captured c).flushWord.accept (.mark mark) := by
  have lineBreak : c ≠ '\n' := by
    rintro rfl
    cases isMark
  have outside := upTo_succ_inComment (List.getElem?_eq_some_iff.mp found).1
  rw [code, upTo_succ found, advance_inComment] at outside
  have codeBefore : (upTo cs n).inComment = false := by
    simp only [Bool.and_eq_false_iff, bne_eq_false_iff_eq, lineBreak, Bool.or_eq_false_iff,
      false_or] at outside
    exact outside.1
  rw [upTo_succ found, advance_of_mark isMark codeBefore]

/-- The brace that enters a block ends a word and a statement. -/
theorem upTo_of_entered {i : Nat} (entered : entered? cs i = some name)
    : (∃ block, Inside cs i (i + 1) block ∧ block.name = name)
      ∧ (upTo cs (i + 1)).statement = {}
      ∧ (upTo cs (i + 1)).word = {}
      ∧ (upTo cs (i + 1)).inComment = false := by
  have inText := lt_length_of_entered entered
  have unclosed : ∀ m < i + 1, closing? cs i ≠ some m := by
    intro m before closes
    have behind := (closing?_eq_some_iff.mp closes).1.1
    omega
  obtain ⟨block, inside, named⟩ :=
    inside_of_entered entered (Nat.lt_succ_self i) inText unclosed
  obtain ⟨brace, code⟩ := braceWeight_eq_one_iff.mp inside.opening
  have step := upTo_succ_of_mark brace rfl code
  have spot := (accept_spot ((upTo cs i).captured '\x7b').flushWord (.mark .openBrace)).trans
    (flushWord_spot _)
  refine ⟨⟨block, inside, named⟩, ?_, ?_, (upTo_succ_inComment inText).trans code⟩
  · rw [step]
    exact (accept_pending_of_ends rfl).statement
  · rw [step]
    exact spot.word

/-- A block that is entered outside parameter lists is read as on its own, up to any position before
the brace that closes it.
-/
theorem inStep_of_entered {i q : Nat} (entered : entered? cs i = some name) (behind : i < q)
    (inText : q ≤ cs.length) (unclosed : ∀ m < q, closing? cs i ≠ some m)
    (apart : cs[q]? ≠ some '/') (lists : (upTo cs (i + 1)).openLists = 0)
    (directly : Directly name t) (settled : t.Settled)
    (declarations
      : (upTo cs (i + 1)).declarations.getD name [] = earlier ++ t.declarations.getD name [])
    : InStep name earlier (upTo cs q).flushWord
        (t.acceptAll (Token.ofText (slice cs (i + 1) q))) := by
  obtain ⟨⟨block, inside, named⟩, statement, word, code⟩ := upTo_of_entered entered
  have coherent := (upTo_steady cs (i + 1)).1.coherent
  have start : InStep name earlier (upTo cs (i + 1)) t := by
    refine ⟨⟨block, inside.place, named, ?_⟩, directly.block, ?_, ?_, ?_, directly.only,
      declarations, directly.sources⟩
    · have depth := inside.depth
      rw [braceCount_succ (Nat.le_refl i), braceCount_self, inside.opening] at depth
      rw [directly.depth]
      omega
    · rw [directly.depth]
      exact Nat.one_pos
    · exact ⟨lists.trans settled.openLists.symm, statement.trans settled.statement.symm,
        (coherent.idle lists).trans settled.parameter.symm⟩
    · exact named ▸ coherent.entered block inside.place
  have within (m : Nat) (after : i + 1 < m) (upTo : m ≤ q)
      : (Scanner.upTo cs m).block ≠ none := by
    obtain ⟨later, still, _⟩ := inside_of_entered entered (n := m) (by omega) (by omega)
      fun earlier before => unclosed earlier (by omega)
    rw [still.place]
    exact Option.some_ne_none later
  have read := start.run behind inText within apart
  rw [word, code] at read
  rw [Token.ofText_eq_scanning]
  exact read

-----------------------------------------------------------------------------------------
-- Outside the blocks of a section
-----------------------------------------------------------------------------------------

/-- What a character records belongs to the section around it. -/
theorem section_of_recordedBy? {c : Char} {line : RecordedLine}
    (recorded : s.recordedBy? c = some line)
    : s.block.map Block.name = some line.name := by
  unfold recordedBy? at recorded
  split at recorded
  · cases recorded
  · split at recorded
    · cases recorded
    · split at recorded
      · obtain ⟨block, _, inside, named, _⟩ := recorded?_eq_some recorded
        rw [← s.flushWord_place.block, inside, named]
        rfl
      · cases recorded

/-- Outside the blocks of a section nothing is declared for it, by induction over the positions. -/
theorem declarations_elsewhere {i n : Nat} (behind : i ≤ n)
    (elsewhere : ∀ m, i ≤ m → m < n → sectionAt? cs m ≠ some name)
    : (upTo cs n).declarations.getD name [] = (upTo cs i).declarations.getD name [] := by
  rw [declarations_upTo, declarations_upTo]
  induction n, behind using Nat.le_induction with
  | base => rfl
  | succ n behind ih =>
      rw [recordedBefore_succ, RecordedLine.declarationsOf_append,
        ih fun m after before => elsewhere m after (by omega)]
      cases recorded : recordedAt? cs n with
      | none => exact List.append_nil _
      | some line =>
          obtain ⟨c, _, here⟩ := Option.bind_eq_some_iff.mp recorded
          have other : line.name ≠ name := by
            rintro rfl
            exact elsewhere n behind (Nat.lt_succ_self n) (section_of_recordedBy? here)
          simp [RecordedLine.declarationsOf, other]

end Scanner

end ShaderReflection
