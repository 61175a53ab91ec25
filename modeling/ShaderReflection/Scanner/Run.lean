import ShaderReflection.Scanner.Accept
import ShaderReflection.Text.Split

/-! Scanning characters, lines and whole texts. A scan stops at the first character that would
exceed a limit, with all that was taken in before that character.
-/

namespace ShaderReflection

/-- A scan that was stopped by a limit, with the state that it had reached. -/
structure Interruption where
  overflow : Overflow
  scanner : Scanner
deriving DecidableEq

namespace Scanner

/-- Ends the word being read. -/
def flushWord (s : Scanner) : Scanner :=
  if s.word.isEmpty then s
  else
    let word := s.word.text
    { s with word := {} }.accept (.word word)

/-- Adds a character to the word being read. -/
def extendWord (limits : Limits) (s : Scanner) (c : Char) : Except Interruption Scanner :=
  match s.word.appendToWord limits.word c with
  | .error overflow => .error ⟨overflow, s⟩
  | .ok word => .ok { s with word }

/-- A word is extended unless it is as long as the limit. -/
theorem extendWord_eq (limits : Limits) (s : Scanner) (c : Char)
    : s.extendWord limits c
      = match s.word.wordOverflow? limits.word with
        | some overflow => .error ⟨overflow, s⟩
        | none => .ok { s with word := s.word.push c } := by
  rw [extendWord, Buffer.appendToWord]
  cases s.word.wordOverflow? limits.word <;> rfl

/-- Copies a character to the source of the section block around it. -/
def capture (limits : Limits) (s : Scanner) (c : Char) : Except Interruption Scanner :=
  match s.block with
  | none => .ok s
  | some block =>
      match block.source.appendToSource limits.source c with
      | .error overflow => .error ⟨overflow, s⟩
      | .ok source => .ok { s with block := some { block with source } }

/-- A character is captured inside a block, unless it is left out or the source is as long as the
limit. -/
theorem capture_cases (limits : Limits) (s : Scanner) (c : Char)
    : s.capture limits c
      = match s.block with
        | none => .ok s
        | some block =>
            if Buffer.isLeftOut c then .ok s
            else match block.source.sourceOverflow? limits.source with
              | some overflow => .error ⟨overflow, s⟩
              | none => .ok { s with block := some { block with source := block.source.push c } } := by
  obtain ⟨lineNumber, depth, block, openLists, word, statement, parameter⟩ := s
  cases block with
  | none => rfl
  | some block =>
      simp only [capture, Buffer.appendToSource]
      cases Buffer.isLeftOut c with
      | true => rfl
      | false => cases block.source.sourceOverflow? limits.source <;> rfl

/-- Takes in a character outside comments. -/
def classify (limits : Limits) (s : Scanner) (c : Char) (next : Option Char)
    : Except Interruption Scanner :=
  match CharClass.of c next with
  | .mark mark => .ok (s.flushWord.accept (.mark mark))
  | .commentStart => .ok { s.flushWord with inComment := true }
  | .separator => .ok s.flushWord
  | .wordChar => s.extendWord limits c

/-- Takes in a character, given the character behind it on its line. Comments are captured like
all else, and otherwise skipped. -/
def step (limits : Limits) (s : Scanner) (c : Char) (next : Option Char)
    : Except Interruption Scanner :=
  match s.capture limits c with
  | .error stopped => .error stopped
  | .ok s => if s.inComment then .ok s else s.classify limits c next

/-- Takes in the characters of a line. -/
def steps (limits : Limits) (s : Scanner) : List Char → Except Interruption Scanner
  | [] => .ok s
  | c :: rest =>
      match s.step limits c rest.head? with
      | .error stopped => .error stopped
      | .ok s => steps limits s rest

/-- Starts a line, outside comments. -/
def startLine (s : Scanner) : Scanner :=
  { s with lineNumber := s.lineNumber + 1, inComment := false }

/-- Scans a line. Its end also ends a word. -/
def scanLine (limits : Limits) (s : Scanner) (line : List Char) : Except Interruption Scanner :=
  match s.startLine.steps limits line with
  | .error stopped => .error stopped
  | .ok s => .ok s.flushWord

/-- Scans lines one after another. -/
def scanLines (limits : Limits) (s : Scanner) : List (List Char) → Except Interruption Scanner
  | [] => .ok s
  | line :: rest =>
      match s.scanLine limits line with
      | .error stopped => .error stopped
      | .ok s => scanLines limits s rest

/-- Lines can be scanned in two portions. -/
theorem scanLines_append (limits : Limits) (s : Scanner) (before behind : List (List Char))
    : s.scanLines limits (before ++ behind)
      = (s.scanLines limits before).bind fun s => s.scanLines limits behind := by
  induction before generalizing s with
  | nil => rfl
  | cons line rest ih =>
      rw [List.cons_append, scanLines, scanLines]
      cases s.scanLine limits line with
      | error stopped => rfl
      | ok s => exact ih s

/-- What is noticed when the text ends. -/
def closingWarnings (s : Scanner) : List Warning :=
  (s.block.toList.map fun block => .unclosedSection block.name)
    ++ if s.openLists = 0 then [] else [.unclosedParameters]

/-- Ends the text. -/
def finish (s : Scanner) : Scanner :=
  let s := s.flushWord
  { s with warnings := s.warnings ++ s.closingWarnings }

/-- Scans a text to its end. -/
def scan (limits : Limits) (s : Scanner) (text : String) : Except Interruption Scanner :=
  match s.scanLines limits (Text.lines text.toList) with
  | .error stopped => .error stopped
  | .ok s => .ok s.finish

end Scanner

end ShaderReflection
