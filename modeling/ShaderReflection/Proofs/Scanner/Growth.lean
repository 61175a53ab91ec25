import ShaderReflection.Proofs.OrderedMap.Extension
import ShaderReflection.Proofs.Scanner.CollectedWarnings

/-! What a scan has collected only grows: warnings, the declarations of each section and the
sources of its closed blocks. This holds from any state on, and also where a limit stops the scan.
-/

namespace ShaderReflection.Scanner

variable {s t u : Scanner} {limits : Limits}

/-- What the first scan has collected is the beginning of what the second has: of its warnings, of
the declarations of each section that was entered, and of the source of each that was closed.
Sections keep their places among those entered and among those closed.
-/
structure Grows (s t : Scanner) : Prop where
  warnings : s.warnings.toList <+: t.warnings.toList
  declarations : s.declarations.Extends id t.declarations
  sources : s.sources.Extends String.toList t.sources

theorem Grows.refl (s : Scanner) : s.Grows s where
  warnings := List.prefix_rfl
  declarations := .refl id s.declarations
  sources := .refl String.toList s.sources

theorem Grows.trans (h : s.Grows t) (k : t.Grows u) : s.Grows u where
  warnings := h.warnings.trans k.warnings
  declarations := h.declarations.trans k.declarations
  sources := h.sources.trans k.sources

/-- Further warnings alone are growth. -/
theorem Grows.ofWarnings {warnings : Array Warning}
    (added : s.warnings.toList <+: warnings.toList)
    : s.Grows { s with warnings } :=
  { Grows.refl s with warnings := added }

/-- A scan that has grown goes on growing, wherever what follows ends. -/
theorem Grows.ends (h : s.Grows t) {scanned : Except Interruption Scanner}
    (further : Ends t.Grows t.Grows scanned)
    : Ends s.Grows s.Grows scanned := by
  cases scanned with
  | ok u => exact h.trans further
  | error stopped => exact h.trans further

/-- A scan that grows wherever it ends, followed by one that does, grows wherever that ends. -/
theorem grows_bind {scanned : Except Interruption Scanner} (first : Ends s.Grows s.Grows scanned)
    {next : Scanner → Except Interruption Scanner}
    (rest : ∀ t : Scanner, Ends t.Grows t.Grows (next t))
    : Ends s.Grows s.Grows (scanned.bind next) := by
  cases scanned with
  | ok t => exact Grows.ends first (rest t)
  | error stopped => exact first

theorem grows_map {scanned : Except Interruption Scanner} (first : Ends s.Grows s.Grows scanned)
    {ending : Scanner → Scanner} (rest : ∀ t : Scanner, t.Grows (ending t))
    : Ends s.Grows s.Grows (scanned.map ending) := by
  cases scanned with
  | ok t => exact Grows.trans first (rest t)
  | error stopped => exact first

-----------------------------------------------------------------------------------------
-- Statements, blocks and tokens
-----------------------------------------------------------------------------------------

theorem report_grows (s : Scanner) (finding : Finding) : s.Grows (s.report finding) :=
  .ofWarnings (s.report_warnings finding)

theorem keep_grows (s : Scanner) (name : Section) (d : Declaration)
    : s.Grows (s.keep name d) := by
  unfold keep
  split
  · exact .refl s
  · have added : s.declarations.Extends id (s.declarations.modify name (· ++ [d])) := by
      apply OrderedMap.extends_modify
      intro earlier
      exact List.prefix_append earlier [d]
    exact { Grows.refl s with declarations := added }

theorem finishStatement_grows (s : Scanner) : s.Grows s.finishStatement := by
  rcases s.finishStatement_cases with dropped | ⟨block, reading, _, _, _, kept⟩
  · rw [dropped]
    exact { Grows.refl s with }
  · rw [kept]
    refine Grows.trans ?_ (keep_grows _ block.name reading.declaration)
    refine { Grows.refl s with warnings := ?_ }
    rw [Array.toList_appendList]
    exact List.prefix_append _ _

theorem enterBlock_grows (s : Scanner) (name : Section) : s.Grows (s.enterBlock name) := by
  unfold enterBlock
  split
  · exact { s.report_grows (.repeatedSection name) with }
  · refine { Grows.refl s with declarations := ?_ }
    exact s.declarations.extends_insertIfNew id name []

/-- The source of a block that is left comes behind the sources of earlier blocks of its section. -/
theorem leaveBlock_grows (s : Scanner) (block : Block) : s.Grows (s.leaveBlock block) := by
  refine { Grows.refl s with sources := ?_ }
  refine s.sources.extends_insert block.name ?_
  intro earlier found
  simp only [found, String.append_assoc, String.toList_append]
  exact List.prefix_append _ _

theorem openBrace_grows (s : Scanner) : s.Grows s.openBrace := by
  cases entered : s.enteredSection? with
  | none =>
      rw [openBrace_nested entered]
      exact { s.finishStatement_grows with }
  | some name =>
      rw [openBrace_entering entered]
      have grown := (s.enterBlock_grows name).trans (s.enterBlock name).finishStatement_grows
      exact { grown with }

theorem closeBrace_grows (s : Scanner) : s.Grows s.closeBrace := by
  refine s.finishStatement_grows.trans ?_
  by_cases unbalanced : s.depth = 0
  · rw [closeBrace_unbalanced unbalanced]
    exact s.finishStatement.report_grows .unbalancedBrace
  · have shallower : s.finishStatement.Grows { s.finishStatement with depth := s.depth - 1 } :=
      { Grows.refl s.finishStatement with }
    rcases Option.eq_none_or_eq_some s.block with outside | ⟨block, inside⟩
    · rw [closeBrace_outside unbalanced outside]
      exact shallower
    · rw [closeBrace_inside unbalanced inside]
      split
      · exact shallower.trans (leaveBlock_grows _ block)
      · exact shallower

/-- Tokens only add to what is collected, by cases on the token. -/
theorem accept_grows (s : Scanner) (token : Token) : s.Grows (s.accept token) := by
  cases token with
  | word text =>
      simp only [accept, acceptWord]
      split <;> exact { Grows.refl s with }
  | mark mark =>
      cases mark with
      | openBrace => exact s.openBrace_grows
      | closeBrace => exact s.closeBrace_grows
      | openParenthesis => exact { Grows.refl s with }
      | closeParenthesis =>
          simp only [accept, acceptMark, closeParenthesis]
          split
          · exact s.report_grows .unmatchedParenthesis
          · exact { Grows.refl s with }
      | comma =>
          simp only [accept, acceptMark, comma]
          split <;> exact { Grows.refl s with }
      | semicolon => exact s.finishStatement_grows
      | equals =>
          simp only [accept, acceptMark, equals]
          split <;> exact { Grows.refl s with }

theorem flushWord_grows (s : Scanner) : s.Grows s.flushWord := by
  cases pending : s.word.isEmpty with
  | true =>
      rw [flushWord_of_empty pending]
      exact .refl s
  | false =>
      rw [flushWord_of_pending pending]
      have cleared : s.Grows { s with word := {} } := { Grows.refl s with }
      exact cleared.trans (accept_grows _ _)

-----------------------------------------------------------------------------------------
-- Characters, lines and texts, wherever they end
-----------------------------------------------------------------------------------------

theorem capture_grows (limits : Limits) (s : Scanner) (c : Char)
    : Ends s.Grows s.Grows (s.capture limits c) := by
  rw [capture_cases]
  split
  · exact Grows.refl s
  · split
    · exact Grows.refl s
    · split
      · exact Grows.refl s
      · exact { Grows.refl s with }

/-- A character outside comments only adds to what is collected, by cases on its class. -/
theorem classify_grows (limits : Limits) (s : Scanner) (c : Char) (next : Option Char)
    : Ends s.Grows s.Grows (s.classify limits c next) := by
  unfold classify
  cases CharClass.of c next with
  | mark mark => exact s.flushWord_grows.trans (accept_grows _ (.mark mark))
  | commentStart => exact { s.flushWord_grows with }
  | separator => exact s.flushWord_grows
  | wordChar =>
      simp only [extendWord_eq]
      split
      · exact Grows.refl s
      · exact { Grows.refl s with }

theorem step_grows (limits : Limits) (s : Scanner) (c : Char) (next : Option Char)
    : Ends s.Grows s.Grows (s.step limits c next) := by
  have cut : s.step limits c next
      = (s.capture limits c).bind fun t =>
          if t.inComment then .ok t else t.classify limits c next := by
    rw [step]
    cases s.capture limits c <;> rfl
  rw [cut]
  apply grows_bind (s.capture_grows limits c)
  intro t
  split
  · exact Grows.refl t
  · exact t.classify_grows limits c next

/-- The characters of a line only add to what is collected, by induction along the line. -/
theorem steps_grows (limits : Limits) (s : Scanner) (line : List Char)
    : Ends s.Grows s.Grows (s.steps limits line) := by
  induction line generalizing s with
  | nil => exact Grows.refl s
  | cons c rest ih =>
      have cut : s.steps limits (c :: rest)
          = (s.step limits c rest.head?).bind fun t => t.steps limits rest := by
        rw [steps]
        cases s.step limits c rest.head? <;> rfl
      rw [cut]
      exact grows_bind (s.step_grows limits c rest.head?) ih

/-- Scans a line without counting it. -/
def scanUncounted (limits : Limits) (s : Scanner) (line : List Char)
    : Except Interruption Scanner :=
  ({ s with inComment := false }.steps limits line).map flushWord

/-- Scanning a line is counting it and then scanning it without counting. -/
theorem scanLine_eq_scanUncounted (limits : Limits) (s : Scanner) (line : List Char)
    : s.scanLine limits line
      = { s with lineNumber := s.lineNumber + 1 }.scanUncounted limits line := by
  rw [scanLine, scanUncounted]
  change _ = (s.startLine.steps limits line).map flushWord
  cases s.startLine.steps limits line <;> rfl

/-- Only the line number tells an uncounted line from a counted one. -/
theorem Resting.scanUncounted {limits : Limits} {s : Scanner} (h : s.Resting limits)
    (line : List Char)
    : Ends (fun u => u.Resting limits) (fun u => u.Resting limits)
        (s.scanUncounted limits line) := by
  have steady : { s with inComment := false }.Steady limits :=
    { h.startLine_steady with coherent := { h.coherent with }, bounded := { h.bounded with } }
  exact ends_flushWord (steady.steps (h.startLine_ready line.head?))

theorem scanUncounted_grows (limits : Limits) (s : Scanner) (line : List Char)
    : Ends s.Grows s.Grows (s.scanUncounted limits line) := by
  have started : s.Grows { s with inComment := false } := { Grows.refl s with }
  exact grows_map (started.ends (steps_grows limits _ line)) flushWord_grows

theorem scanLine_grows (limits : Limits) (s : Scanner) (line : List Char)
    : Ends s.Grows s.Grows (s.scanLine limits line) := by
  have counted : s.Grows { s with lineNumber := s.lineNumber + 1 } := { Grows.refl s with }
  rw [scanLine_eq_scanUncounted]
  exact counted.ends (scanUncounted_grows limits _ line)

/-- Lines only add to what is collected, by induction over the lines. -/
theorem scanLines_grows (limits : Limits) (s : Scanner) (lines : List (List Char))
    : Ends s.Grows s.Grows (s.scanLines limits lines) := by
  induction lines generalizing s with
  | nil => exact Grows.refl s
  | cons line rest ih =>
      have cut : s.scanLines limits (line :: rest)
          = (s.scanLine limits line).bind fun t => t.scanLines limits rest := by
        rw [scanLines]
        cases s.scanLine limits line <;> rfl
      rw [cut]
      exact grows_bind (s.scanLine_grows limits line) ih

theorem finish_grows (s : Scanner) : s.Grows s.finish := by
  refine s.flushWord_grows.trans (.ofWarnings ?_)
  rw [Array.toList_appendList]
  exact List.prefix_append _ _

theorem scan_grows (limits : Limits) (s : Scanner) (text : String)
    : Ends s.Grows s.Grows (s.scan limits text) := by
  have cut : s.scan limits text = (s.scanLines limits (Text.lines text.toList)).map finish := by
    rw [scan]
    cases s.scanLines limits (Text.lines text.toList) <;> rfl
  rw [cut]
  exact grows_map (s.scanLines_grows limits _) finish_grows

end ShaderReflection.Scanner
