import ShaderReflection.Proofs.Machine.State
import ShaderReflection.Proofs.OrderedMap.RenamedKeys
import ShaderReflection.Proofs.Scanner.Growth

/-! The machine over plain registers does what a scan does. Each state of a scan is read as one of
the machine, and each operation of the scan leads to what the machine makes of it, stopped by the
same overflow or not at all.
-/

namespace ShaderReflection

namespace Scanner

/-- The modes that a scan is in, the outermost first. -/
def modes (s : Scanner) : List Mode :=
  .statement :: List.replicate s.openLists .parameter

/-- The section around the current position. -/
def currentSection? (s : Scanner) : Option Section :=
  s.block.map Block.name

/-- The registers that hold what a scan has reached. Outside all blocks the start depth is minus
one, and no source is captured.
-/
def machine (s : Scanner) : Machine where
  lineNumber := s.lineNumber
  modes := s.modes
  depth := s.depth
  startDepth := (s.block.map fun block => (block.outerDepth : Int)).getD (-1)
  place := s.currentSection?
  word := s.word
  captured := (s.block.map Block.source).getD {}
  inComment := s.inComment
  statement := s.statement
  parameter := s.parameter
  declarations := s.declarations.mapKeys some (Option.some_injective Section)
  sources := s.sources.mapKeys some (Option.some_injective Section)
  warnings := s.warnings

/-- The outcome of a run, read as one of the machine. -/
def machineOutcome : Except Interruption Scanner → Except Machine.Stop Machine
  | .ok s => .ok s.machine
  | .error stopped => .error ⟨stopped.overflow, stopped.scanner.machine⟩

variable {s : Scanner} {block : Block} {limits : Limits}

@[simp]
theorem machineOutcome_ok (s : Scanner) : machineOutcome (.ok s) = .ok s.machine :=
  rfl

-----------------------------------------------------------------------------------------
-- Modes and places
-----------------------------------------------------------------------------------------

theorem modes_getLast? (s : Scanner)
    : s.modes.getLast? = some (if s.openLists = 0 then .statement else .parameter) := by
  unfold modes
  cases s.openLists with
  | zero => rfl
  | succ n =>
      rw [List.replicate_succ', ← List.cons_append, List.getLast?_concat]
      rfl

/-- A scan is in the mode of statements exactly outside all parameter lists. -/
theorem modes_getLast?_iff (s : Scanner)
    : s.modes.getLast? = some .statement ↔ s.openLists = 0 := by
  simp [modes_getLast?]

theorem machine_inStatement (s : Scanner)
    : s.machine.mode? = some .statement ↔ s.openLists = 0 :=
  s.modes_getLast?_iff

theorem machine_inParameter (s : Scanner)
    : s.machine.mode? = some .parameter ↔ s.openLists ≠ 0 := by
  change s.modes.getLast? = _ ↔ _
  simp [modes_getLast?]

theorem machine_outside (s : Scanner) : s.machine.place = none ↔ s.block = none := by
  simp only [machine, currentSection?, Option.map_eq_none_iff]

theorem machine_place (inside : s.block = some block) : s.machine.place = some block.name := by
  simp only [machine, currentSection?, inside, Option.map_some]

theorem machine_startDepth (inside : s.block = some block)
    : s.machine.startDepth = block.outerDepth := by
  simp only [machine, inside, Option.map_some, Option.getD_some]

theorem machine_captured (inside : s.block = some block) : s.machine.captured = block.source := by
  simp only [machine, inside, Option.map_some, Option.getD_some]

theorem machine_depth (s : Scanner) : s.machine.depth = s.depth :=
  rfl

-----------------------------------------------------------------------------------------
-- Statements
-----------------------------------------------------------------------------------------

theorem machine_reportAll (s : Scanner) (findings : List Finding)
    : (s.reportAll findings).machine = findings.foldl Machine.report s.machine := by
  unfold reportAll
  induction findings generalizing s with
  | nil => rfl
  | cons finding rest ih => exact ih (s.report finding)

theorem machine_keep (inside : s.block = some block) (d : Declaration)
    : (s.keep block.name d).machine = s.machine.keep d := by
  simp only [keep, Machine.keep, machine_place inside]
  split
  · rfl
  · simp only [machine, OrderedMap.mapKeys_modify, modes, currentSection?, inside, Option.map_some]

/-- Inside a block a statement is interpreted for the current section. -/
theorem machine_interpret (inside : s.block = some block) (keywords : List Keyword)
    : (s.interpret block.name keywords).machine = s.machine.interpret keywords := by
  unfold interpret Machine.interpret
  cases Declaration.read? keywords with
  | none => rfl
  | some reading =>
      have around : (s.reportAll (findingsOf reading)).block = some block := by
        rw [reportAll_eq]
        exact inside
      simp only [← machine_reportAll, ← machine_keep around]

theorem machine_finishStatement (s : Scanner)
    : s.finishStatement.machine = s.machine.finishStatement := by
  have cleared : { s.machine with statement := {} } = { s with statement := {} }.machine := rfl
  simp only [Machine.finishStatement, cleared]
  rcases Option.eq_none_or_eq_some s.block with outside | ⟨block, inside⟩
  · rw [finishStatement_outside outside, if_pos (Or.inl (s.machine_outside.mpr outside))]
  · have level : s.machine.depth = s.machine.startDepth + 1 ↔ s.depth = block.outerDepth + 1 := by
      rw [machine_depth, machine_startDepth inside]
      omega
    simp only [finishStatement_inside inside, machine_place inside, reduceCtorEq, false_or, ne_eq,
      level, ite_not]
    split
    · have around : { s with statement := {} }.block = some block := inside
      exact machine_interpret around s.statement.keywords
    · rfl

-----------------------------------------------------------------------------------------
-- Sections
-----------------------------------------------------------------------------------------

/-- Outside all blocks no source is captured, so a block that is entered starts with none. -/
theorem machine_enterBlock (outside : s.block = none) (name : Section)
    : (s.enterBlock name).machine = s.machine.enterSection name := by
  have known : s.machine.declarations.contains (some name) = s.declarations.contains name :=
    OrderedMap.contains_mapKeys (Option.some_injective Section) s.declarations name
  unfold enterBlock Machine.enterSection
  simp only [known]
  split
  · simp [machine, outside, modes, currentSection?, report, Machine.report]
  · simp [machine, outside, modes, currentSection?, OrderedMap.mapKeys_insertIfNew]

theorem machine_leaveBlock (inside : s.block = some block)
    : (s.leaveBlock block).machine = s.machine.closeSection := by
  have earlier : s.machine.sources.get? (some block.name) = s.sources.get? block.name :=
    OrderedMap.get?_mapKeys (Option.some_injective Section) s.sources block.name
  simp only [Machine.closeSection, machine_place inside, machine_captured inside, earlier]
  simp only [leaveBlock, machine, OrderedMap.mapKeys_insert]
  rfl

/-- The section that a brace enters is named by the last word, outside all sections. -/
theorem enteredSection?_eq (s : Scanner)
    : s.enteredSection?
      = if s.machine.place = none then
          s.machine.statement.last?.bind fun k => Section.ofKeyword? k.word
        else none := by
  unfold enteredSection?
  simp only [machine_outside]
  cases s.block <;> rfl

theorem machine_openBrace (s : Scanner) : s.openBrace.machine = s.machine.openBrace := by
  simp only [Machine.openBrace, ← enteredSection?_eq]
  cases entered : s.enteredSection? with
  | none =>
      simp only [openBrace_nested entered, ← machine_finishStatement]
      rfl
  | some name =>
      have outside := outside_of_enteredSection? entered
      simp only [openBrace_entering entered, ← machine_enterBlock outside,
        ← machine_finishStatement]
      rfl

theorem machine_closeBrace (s : Scanner) : s.closeBrace.machine = s.machine.closeBrace := by
  have depth : s.finishStatement.machine.depth = s.depth := by
    rw [machine_depth, s.finished.depth]
  simp only [Machine.closeBrace, ← machine_finishStatement, depth, Int.natCast_eq_zero]
  by_cases unbalanced : s.depth = 0
  · rw [closeBrace_unbalanced unbalanced, if_pos unbalanced]
    rfl
  · let risen := { s.finishStatement with depth := s.depth - 1 }
    have shallower : { s.finishStatement.machine with depth := (s.depth : Int) - 1 }
        = risen.machine := by
      have lower : (s.depth : Int) - 1 = (s.depth - 1 : Nat) := by omega
      rw [lower]
      rfl
    simp only [if_neg unbalanced, shallower]
    rcases Option.eq_none_or_eq_some s.block with outside | ⟨block, inside⟩
    · have place : s.finishStatement.machine.place = none :=
        s.finishStatement.machine_outside.mpr (s.finished.block.trans outside)
      simp only [closeBrace_outside unbalanced outside, place, ne_eq, not_true_eq_false, false_and,
        if_false]
      rfl
    · have around : s.finishStatement.block = some block := s.finished.block.trans inside
      have level : (s.depth : Int) - 1 = s.finishStatement.machine.startDepth
          ↔ s.depth - 1 = block.outerDepth := by
        rw [machine_startDepth around]
        omega
      simp only [closeBrace_inside unbalanced inside, machine_place around, level, ne_eq,
        reduceCtorEq, not_false_eq_true, true_and]
      split
      · have within : risen.block = some block := around
        exact machine_leaveBlock within
      · rfl

-----------------------------------------------------------------------------------------
-- Parameters
-----------------------------------------------------------------------------------------

theorem machine_commitParameter (s : Scanner)
    : s.commitParameter.machine = s.machine.commitParameter :=
  rfl

theorem machine_openParenthesis (s : Scanner)
    : s.openParenthesis.machine = s.machine.openParenthesis := by
  have pushed : s.openParenthesis.modes = s.modes ++ [.parameter] := by
    rw [modes, openParenthesis, List.replicate_succ', ← List.cons_append]
    rfl
  simp only [machine, pushed]
  rfl

theorem machine_closeParenthesis (s : Scanner)
    : s.closeParenthesis.machine = s.machine.closeParenthesis := by
  simp only [closeParenthesis, Machine.closeParenthesis, machine_inParameter, not_not, ne_eq]
  split
  · rfl
  · next inside =>
      have popped : List.replicate (s.openLists - 1) Mode.parameter
          = (List.replicate s.openLists Mode.parameter).dropLast := by
        rw [List.dropLast_replicate]
      have nonempty : List.replicate s.openLists Mode.parameter ≠ [] := by simpa using inside
      have modes : { s.commitParameter with openLists := s.commitParameter.openLists - 1 }.modes
          = s.modes.dropLast := by
        rw [modes, modes, List.dropLast_cons_of_ne_nil nonempty, ← popped]
        rfl
      rw [← machine_commitParameter]
      simp only [machine, modes]
      rfl

theorem machine_comma (s : Scanner) : s.comma.machine = s.machine.comma := by
  simp only [comma, Machine.comma, machine_inParameter, ne_eq, ite_not]
  split <;> rfl

theorem machine_equals (s : Scanner) : s.equals.machine = s.machine.equals := by
  simp only [equals, Machine.equals, machine_inStatement]
  split <;> rfl

-----------------------------------------------------------------------------------------
-- Characters and lines
-----------------------------------------------------------------------------------------

theorem machine_acceptWord (s : Scanner) (word : String)
    : (s.acceptWord word).machine = s.machine.acceptWord word := by
  simp only [acceptWord, Machine.acceptWord, machine_inStatement]
  split <;> rfl

/-- A mark does to a scan what it does to the machine, by cases on the mark. -/
theorem machine_acceptMark (s : Scanner) (mark : Mark)
    : (s.acceptMark mark).machine = s.machine.acceptMark mark := by
  cases mark with
  | openBrace => exact s.machine_openBrace
  | closeBrace => exact s.machine_closeBrace
  | openParenthesis => exact s.machine_openParenthesis
  | closeParenthesis => exact s.machine_closeParenthesis
  | comma => exact s.machine_comma
  | semicolon => exact s.machine_finishStatement
  | equals => exact s.machine_equals

theorem machine_flushWord (s : Scanner) : s.flushWord.machine = s.machine.flushWord := by
  unfold flushWord Machine.flushWord
  have same : s.machine.word = s.word := rfl
  rw [same]
  split
  · rfl
  · exact machine_acceptWord _ _

theorem machine_extendWord (limits : Limits) (s : Scanner) (c : Char)
    : machineOutcome (s.extendWord limits c) = s.machine.extendWord limits c := by
  have same : s.machine.word = s.word := rfl
  rw [extendWord, Machine.extendWord, same]
  cases s.word.appendToWord limits.word c <;> rfl

theorem machine_capture (limits : Limits) (s : Scanner) (c : Char)
    : machineOutcome (s.capture limits c) = s.machine.capture limits c := by
  rw [capture, Machine.capture]
  cases place : s.block with
  | none => simp [machine, machineOutcome, currentSection?, place]
  | some block =>
      simp only [machine_captured place, machine_place place, reduceCtorEq, if_false]
      cases block.source.appendToSource limits.source c with
      | error overflow => rfl
      | ok source => simp [machine, machineOutcome, currentSection?, place, modes]

theorem machine_classify (limits : Limits) (s : Scanner) (c : Char) (next : Option Char)
    : machineOutcome (s.classify limits c next) = s.machine.classify limits c next := by
  unfold classify Machine.classify
  cases CharClass.of c next with
  | mark mark =>
      simp only [machineOutcome, accept, machine_acceptMark, machine_flushWord]
  | commentStart =>
      rw [← machine_flushWord]
      rfl
  | separator => simp only [machineOutcome, machine_flushWord]
  | wordChar => exact machine_extendWord limits s c

/-- A character does to a scan what it does to the machine, or a limit stops both. -/
theorem machine_step (limits : Limits) (s : Scanner) (c : Char) (next : Option Char)
    : machineOutcome (s.step limits c next) = s.machine.step limits c next := by
  rw [step, Machine.step, ← machine_capture]
  cases s.capture limits c with
  | error stopped => rfl
  | ok t =>
      have comment : t.machine.inComment = t.inComment := rfl
      simp only [machineOutcome_ok, comment]
      split
      · rfl
      · exact machine_classify limits t c next

/-- The characters of a line, by induction along the line. -/
theorem machine_steps (limits : Limits) (s : Scanner) (line : List Char)
    : machineOutcome (s.steps limits line) = s.machine.steps limits line := by
  induction line generalizing s with
  | nil => rfl
  | cons c rest ih =>
      rw [steps, Machine.steps, ← machine_step]
      cases s.step limits c rest.head? with
      | error stopped => rfl
      | ok t => exact ih t

theorem machine_scanUncounted (limits : Limits) (s : Scanner) (line : List Char)
    : machineOutcome (s.scanUncounted limits line) = s.machine.scanUncounted limits line := by
  have started : { s.machine with inComment := false } = { s with inComment := false }.machine :=
    rfl
  rw [scanUncounted, Machine.scanUncounted, started, ← machine_steps]
  cases { s with inComment := false }.steps limits line with
  | error stopped => rfl
  | ok t => exact congrArg Except.ok t.machine_flushWord

theorem machine_scanLine (limits : Limits) (s : Scanner) (line : List Char)
    : machineOutcome (s.scanLine limits line) = s.machine.scanLine limits line := by
  rw [scanLine_eq_scanUncounted, machine_scanUncounted]
  rfl

/-- Lines, by induction over the lines. -/
theorem machine_scanLines (limits : Limits) (s : Scanner) (lines : List (List Char))
    : machineOutcome (s.scanLines limits lines) = s.machine.scanLines limits lines := by
  induction lines generalizing s with
  | nil => rfl
  | cons line rest ih =>
      rw [scanLines, Machine.scanLines, ← machine_scanLine]
      cases s.scanLine limits line with
      | error stopped => rfl
      | ok t => exact ih t

theorem machine_finish (s : Scanner) : s.finish.machine = s.machine.finish := by
  have unpaired : (1 < s.flushWord.machine.modes.length) ↔ ¬ s.flushWord.openLists = 0 := by
    simp only [machine, modes, List.length_cons, List.length_replicate]
    omega
  have closing : s.flushWord.closingWarnings
      = s.flushWord.machine.place.toList.map .unclosedSection
        ++ if 1 < s.flushWord.machine.modes.length then [.unclosedParameters] else [] := by
    rw [closingWarnings]
    simp only [unpaired, ite_not]
    cases place : s.flushWord.block with
    | none => simp [s.flushWord.machine_outside.mpr place]
    | some block => simp [machine_place place]
  simp only [finish, Machine.finish, ← machine_flushWord, ← closing]
  rfl

theorem machine_scan (limits : Limits) (s : Scanner) (text : String)
    : machineOutcome (s.scan limits text) = s.machine.scan limits text := by
  rw [scan, Machine.scan, ← machine_scanLines]
  cases s.scanLines limits (Text.lines text.toList) with
  | error stopped => rfl
  | ok t => exact congrArg Except.ok t.machine_finish

/-- Without their names, maps under named sections are the maps that they were. -/
theorem ofList_mapKeys_some {α : Type} (m : OrderedMap Section α)
    : OrderedMap.ofList ((m.mapKeys some (Option.some_injective Section)).entries.filterMap
        fun e => e.1.map (·, e.2))
      = m := by
  apply OrderedMap.ext
  have plain : ((m.mapKeys some (Option.some_injective Section)).entries.filterMap
      fun e => e.1.map (·, e.2))
      = m.entries := by
    simp [OrderedMap.entries_mapKeys, List.filterMap_map]
  rw [plain, OrderedMap.entries_ofList m.entries m.keys_nodup]

/-- The machine has collected the sections that the scan has. -/
theorem machine_sections (s : Scanner) : s.machine.sections = s.sections := by
  simp only [Machine.sections, machine, ofList_mapKeys_some, sections]

end Scanner

end ShaderReflection
