import ShaderReflection.Proofs.Scanner.TokenRefinement
import ShaderReflection.Proofs.Stage.Interface

/-! A scan without limits is determined by the tokens of the lines of its text, and but for the line
numbers in its warnings by the tokens of the whole text.
-/

namespace ShaderReflection

/-- The tokens of each line of a text. -/
def Text.tokens (text : String) : List (List Token) :=
  (Text.lines text.toList).map Token.ofLine

/-- A warning that does not tell its line. -/
def Warning.unplaced : Warning → Warning
  | .atLine _ finding => .atLine 0 finding
  | warning => warning

namespace Scanner

/-- The outcome of the machine that is given the tokens of each line. -/
def ofTokens (lines : List (List Token)) : Scanner :=
  (({} : Scanner).acceptLines lines).finish

theorem acceptLines_word (s : Scanner) (lines : List (List Token))
    : (s.acceptLines lines).word = s.word := by
  induction lines generalizing s with
  | nil => rfl
  | cons tokens rest ih =>
      have first : (s.startLine.acceptAll tokens).word = s.word :=
        (s.startLine.acceptAll_spot tokens).word
      exact (ih _).trans first

/-- Every text is scanned to its end, as the token machine does. -/
theorem scan_agree_tokens (text : String)
    : ∃ s, ({} : Scanner).scan {} text = .ok s ∧ Agree id s (ofTokens (Text.tokens text)) := by
  obtain ⟨s, scanned⟩ := scanLines_unlimited {} (Text.lines text.toList)
  obtain ⟨agrees, idle⟩ := scanLines_agree scanned rfl (.refl id {})
  refine ⟨s.finish, by rw [scan, scanned], ?_⟩
  exact agrees.finish idle (acceptLines_word {} _)

/-- Every text is scanned to its end, as all its tokens in one line would be. -/
theorem scan_agree_flat (text : String)
    : ∃ s,
        ({} : Scanner).scan {} text = .ok s
        ∧ Agree Warning.unplaced s
            (({} : Scanner).acceptAll (Text.tokens text).flatten).finish := by
  obtain ⟨s, scanned⟩ := scanLines_unlimited {} (Text.lines text.toList)
  obtain ⟨agrees, idle⟩ := scanLines_agree_flat (.refl Warning.unplaced {}) (fun _ _ _ => rfl)
    scanned rfl
  refine ⟨s.finish, by rw [scan, scanned], ?_⟩
  exact agrees.finish idle (acceptAll_spot {} _).word

/-- The scan over characters refines the machine over tokens. So texts with the same tokens on each
line are scanned alike; if only the tokens of the whole texts agree, all but the line numbers in the
warnings does, and the builds have the same error code, interfaces and layout.
-/
theorem scan_determined_by_tokens (x y : String)
    : (∃ s, ({} : Scanner).scan {} x = .ok s ∧ Agree id s (ofTokens (Text.tokens x)))
      ∧ (Text.tokens x = Text.tokens y
          → ∃ s t,
              ({} : Scanner).scan {} x = .ok s
              ∧ ({} : Scanner).scan {} y = .ok t
              ∧ Agree id s t)
      ∧ ((Text.tokens x).flatten = (Text.tokens y).flatten
          → (∃ s t,
              ({} : Scanner).scan {} x = .ok s
              ∧ ({} : Scanner).scan {} y = .ok t
              ∧ Agree Warning.unplaced s t)
            ∧ (build {} x).SameInterface (build {} y)) := by
  refine ⟨scan_agree_tokens x, ?_, ?_⟩
  · intro same
    obtain ⟨s, scannedX, agreesX⟩ := scan_agree_tokens x
    obtain ⟨t, scannedY, agreesY⟩ := scan_agree_tokens y
    rw [same] at agreesX
    exact ⟨s, t, scannedX, scannedY, agreesX.trans agreesY.symm⟩
  · intro same
    obtain ⟨s, scannedX, agreesX⟩ := scan_agree_flat x
    obtain ⟨t, scannedY, agreesY⟩ := scan_agree_flat y
    rw [same] at agreesX
    have agrees := agreesX.trans agreesY.symm
    refine ⟨⟨s, t, scannedX, scannedY, agrees⟩, ?_⟩
    rw [build_of_scan scannedX, build_of_scan scannedY]
    exact result_sameInterface agrees.sourceKeys agrees.declarations

/-- Witness: a text with other blanks and comments has the same tokens on each line and is scanned
to the same state; one with other line breaks has the same tokens as a whole, and builds the same
interface.
-/
theorem scan_determined_by_tokens_spacing
    : let x := "vertex \x7b\n  in vec3 a/b ; // \x7b\n\x7d"
      let y := "vertex\t\x7b // (\r\n in vec3 a/b;\n\x7d"
      let z := "vertex\x7bin vec3\na/b;\x7d"
      (Text.tokens x = Text.tokens y
        ∧ ∃ s t,
            ({} : Scanner).scan {} x = .ok s
            ∧ ({} : Scanner).scan {} y = .ok t
            ∧ Agree id s t)
      ∧ Text.tokens x ≠ Text.tokens z
      ∧ (Text.tokens x).flatten = (Text.tokens z).flatten
      ∧ (build {} x).SameInterface (build {} z) := by
  intro x y z
  have tokens_eq (text : String)
      : Text.tokens text = (Text.lines text.toList).map (Token.reading []) :=
    List.map_congr_left fun line _ => Token.ofLine_eq_reading line
  have lineByLine : Text.tokens x = Text.tokens y := by
    rw [tokens_eq, tokens_eq]
    decide +kernel
  have overall : (Text.tokens x).flatten = (Text.tokens z).flatten := by
    rw [tokens_eq, tokens_eq]
    decide +kernel
  have divided : Text.tokens x ≠ Text.tokens z := by
    rw [tokens_eq, tokens_eq]
    decide +kernel
  exact ⟨⟨lineByLine, (scan_determined_by_tokens x y).2.1 lineByLine⟩, divided, overall,
    ((scan_determined_by_tokens x z).2.2 overall).2⟩

end Scanner

end ShaderReflection
