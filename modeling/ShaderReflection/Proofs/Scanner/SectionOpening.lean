import ShaderReflection.Proofs.Scanner.BlockInterior

/-! Texts that go on, and the keyword and the brace with which a section is opened: where they stand
behind a text that has nothing pending, a block is entered there.
-/

namespace ShaderReflection

/-- The text that opens a block of a section. -/
def Section.opening (name : Section) : String :=
  name.keyword ++ " \x7b"

theorem Section.opening_eq (name : Section) : name.opening = name.keyword ++ " " ++ "\x7b" := by
  rw [opening, String.append_assoc]
  rfl

/-- The tokens that open a block of a section. -/
def Section.openingTokens (name : Section) : List Token :=
  [.word name.keyword, .mark .openBrace]

/-- Behind its opening a section is read on the same line. -/
theorem Token.reading_opening (name : Section) (rest : List Char)
    : Token.reading [] (name.opening.toList ++ rest) = name.openingTokens ++ Token.reading [] rest := by
  have cut : name.opening.toList ++ rest = name.keyword.toList ++ ' ' :: '\x7b' :: rest := by
    simp [Section.opening]
  rw [cut, reading_spaced _ name.isWord_keyword, reading_mark [] rest rfl]
  rfl

namespace Scanner

open Text

variable {name : Section} {s : Scanner} {cs more : List Char} {i n : Nat}

-----------------------------------------------------------------------------------------
-- Texts that go on
-----------------------------------------------------------------------------------------

theorem advance_congr_next {c : Char} {next other : Option Char}
    (same : c = '/' → (next = some '/' ↔ other = some '/'))
    : s.advance c next = s.advance c other := by
  simp only [advance, CharClass.of_congr_next same]

/-- What follows a text does not change how it is scanned, unless two slashes meet. -/
theorem upTo_append (apart : cs.getLast? ≠ some '/' ∨ more.head? ≠ some '/')
    (inText : n ≤ cs.length)
    : upTo (cs ++ more) n = upTo cs n := by
  induction n with
  | zero => rfl
  | succ n ih =>
      have found : cs[n]? = some cs[n] := List.getElem?_eq_getElem inText
      have there : (cs ++ more)[n]? = some cs[n] := by
        rw [List.getElem?_append_left inText, found]
      rw [upTo_succ found, upTo_succ there, ih (by omega)]
      apply advance_congr_next
      intro slash
      rcases Nat.lt_or_eq_of_le inText with goesOn | last
      · rw [List.getElem?_append_left goesOn]
      · have final : cs.getLast? = some '/' := by
          rw [List.getLast?_eq_getElem?, ← last, Nat.add_sub_cancel, found, slash]
        have past : cs[n + 1]? = none := List.getElem?_eq_none_iff.mpr (by omega)
        rw [List.getElem?_append_right (by omega), past, last, Nat.sub_self,
          ← List.head?_eq_getElem?]
        simpa using apart.resolve_left (· final)

/-- Sources change at closing braces only. -/
theorem sources_of_no_brace (behind : i ≤ n)
    (noBrace : ∀ m, i ≤ m → m < n → cs[m]? ≠ some '\x7d')
    : (upTo cs n).sources = (upTo cs i).sources := by
  induction n, behind using Nat.le_induction with
  | base => rfl
  | succ n behind ih =>
      rw [← ih fun m after before => noBrace m after (by omega)]
      cases found : cs[n]? with
      | none => simp only [upTo, found]
      | some c =>
          have turn := upTo_turn found
          generalize weight : braceWeight cs n = w at turn
          cases turn with
          | stays _ _ sources => exact sources
          | deepens _ _ sources => exact sources
          | enters _ _ _ _ sources => exact sources
          | ignored _ _ _ sources => exact sources
          | rises _ _ _ sources => exact sources
          | leaves _ _ _ _ _ _ =>
              exact absurd (braceWeight_eq_neg_one_iff.mp weight).1
                (noBrace n behind (Nat.lt_succ_self n))

-----------------------------------------------------------------------------------------
-- What a text leaves is what its tokens leave
-----------------------------------------------------------------------------------------

/-- The scan that is given all the tokens of a text. -/
def fed (text : String) : Scanner :=
  ({} : Scanner).acceptAll (Token.ofText text.toList)

theorem finish_of_idle (idle : s.word = {})
    : s.finish = { s with warnings := s.warnings ++ s.closingWarnings } := by
  rw [finish, flushWord_of_empty (Buffer.isEmpty_iff.mpr idle)]

/-- But for warnings and captured text, a text leaves what its tokens leave. -/
theorem ofText_agree (text : String)
    : ∃ warnings, Agree Warning.unplaced (ofText text) { fed text with warnings } := by
  obtain ⟨s, scanned, agrees⟩ := scan_agree_flat text
  cases (scan_unlimited text).symm.trans scanned
  have idle : (fed text).word = {} := (acceptAll_spot {} _).word
  have tokens : (Text.tokens text).flatten = Token.ofText text.toList := rfl
  rw [tokens, ← fed, finish_of_idle idle] at agrees
  exact ⟨_, agrees⟩

theorem finish_place (s : Scanner) : SamePlace s.finish s :=
  { s.flushWord_place with }

theorem finish_declarations (s : Scanner) : s.finish.declarations = s.declarations :=
  s.flushWord_declarations

theorem finish_openLists (s : Scanner) : s.finish.openLists = s.openLists :=
  s.flushWord_openLists

/-- Behind the first part of a text, the scan is where the tokens of that part lead. -/
theorem upTo_fed (text : String) (more : List Char)
    (apart : text.toList.getLast? ≠ some '/' ∨ more.head? ≠ some '/')
    : let s := upTo (text.toList ++ more) text.toList.length
      s.block.map Block.place = (fed text).block.map Block.place
      ∧ s.openLists = (fed text).openLists
      ∧ s.declarations = (fed text).declarations := by
  intro s
  have alone : s = upTo text.toList text.toList.length := upTo_append apart (Nat.le_refl _)
  obtain ⟨_, agrees⟩ := ofText_agree text
  have place := agrees.place
  have openLists := agrees.openLists
  have declarations := agrees.declarations
  rw [ofText, ← alone] at place openLists declarations
  rw [s.finish_place.block] at place
  rw [s.finish_openLists] at openLists
  rw [s.finish_declarations] at declarations
  exact ⟨place, openLists, declarations⟩

/-- A brace behind which the tokens lead into a block, and in front of which they do not, enters it.
-/
theorem entered_of_fed {front : String} {around : Block} (rest : List Char)
    (outside : (fed front).block = none) (inside : (fed (front ++ "\x7b")).block = some around)
    : entered? (front.toList ++ '\x7b' :: rest) front.toList.length = some around.name := by
  have cut : front.toList ++ '\x7b' :: rest = (front ++ "\x7b").toList ++ rest := by simp
  have position : (front ++ "\x7b").toList.length = front.toList.length + 1 := by simp
  have before := (upTo_fed front ('\x7b' :: rest) (Or.inr (by simp))).1
  have behind := (upTo_fed (front ++ "\x7b") rest (Or.inl (by simp))).1
  rw [outside, Option.map_none, Option.map_eq_none_iff] at before
  rw [← cut, position, inside] at behind
  obtain ⟨block, here, place⟩ := Option.map_eq_some_iff.mp behind
  have named : block.name = around.name := congrArg Prod.fst place
  simp only [entered?, before, here, named]

theorem fed_append (x y : String)
    : fed (x ++ "\n" ++ y) = (fed x).acceptAll (Token.ofText y.toList) := by
  have cut : (x ++ "\n" ++ y).toList = x.toList ++ '\n' :: y.toList := by simp
  rw [fed, cut, Token.ofText_append, acceptAll_append, fed]

theorem ofText_keyword (name : Section)
    : Token.ofText (name.keyword ++ " ").toList = [.word name.keyword] := by
  rw [Token.ofText_eq_scanning]
  cases name <;> decide +kernel

theorem ofText_opening (name : Section) : Token.ofText name.opening.toList = name.openingTokens := by
  rw [Token.ofText_eq_scanning]
  cases name <;> decide +kernel

/-- The opening of a section alone leads directly into a block of it. -/
theorem directly_opening (name : Section)
    : Directly name (({} : Scanner).acceptAll name.openingTokens)
      ∧ (({} : Scanner).acceptAll name.openingTokens).Settled
      ∧ (({} : Scanner).acceptAll name.openingTokens).declarations.getD name [] = [] := by
  have reached : ({} : Scanner).acceptAll name.openingTokens = ({} : Scanner).within name :=
    acceptAll_opening ⟨rfl, rfl, rfl⟩ rfl List.not_mem_nil
  rw [reached]
  refine ⟨⟨rfl, rfl, ?_, rfl⟩, ⟨rfl, rfl, rfl⟩, ?_⟩
  · cases name <;> decide +kernel
  · cases name <;> decide +kernel

end Scanner

end ShaderReflection
