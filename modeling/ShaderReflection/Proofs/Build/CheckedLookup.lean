import ShaderReflection.Build
import ShaderReflection.Proofs.OrderedMap.Entries
import ShaderReflection.Proofs.Scanner.Invariant

/-! Builds that stop where a key is looked up that is not set. They never stop there: the block
around a declaration belongs to a section that was entered, and valid stages include the vertex
stage.
-/

namespace ShaderReflection

/-- A key that was looked up and is not set. -/
inductive MissingKey where
  | declarations (name : Section)
  | stage (kind : StageKind)
deriving DecidableEq, Repr

namespace Scanner

/-- Keeps a declaration behind those that are looked up for its section. -/
def keep? (s : Scanner) (name : Section) (d : Declaration) : Except MissingKey Scanner :=
  if d.qualifiers.isEmpty then .ok s
  else match s.declarations.get? name with
    | none => .error (.declarations name)
    | some earlier => .ok { s with declarations := s.declarations.insert name (earlier ++ [d]) }

/-- Takes in what a statement directly inside a section says, with that look-up. -/
def interpret? (s : Scanner) (name : Section) (keywords : List Keyword)
    : Except MissingKey Scanner :=
  match Declaration.read? keywords with
  | none => .ok s
  | some reading => (s.reportAll (findingsOf reading)).keep? name reading.declaration

/-- Ends the statement being read. One directly inside a block is interpreted for the block's
section.
-/
def finishStatement? (s : Scanner) : Except MissingKey Scanner :=
  let keywords := s.statement.keywords
  let s := { s with statement := {} }
  match s.block with
  | none => .ok s
  | some block => if s.declares block then s.interpret? block.name keywords else .ok s

/-- Opens a scope. A section block that it enters is known before the statement in front of the
brace ends.
-/
def openBrace? (s : Scanner) : Except MissingKey Scanner :=
  let s :=
    match s.enteredSection? with
    | some name => s.enterBlock name
    | none => s
  s.finishStatement?.map fun s => { s with depth := s.depth + 1 }

/-- Closes a scope. The statement in front of the brace is still one of the block that the brace may
leave.
-/
def closeBrace? (s : Scanner) : Except MissingKey Scanner :=
  s.finishStatement?.map fun s =>
    if s.depth = 0 then s.report .unbalancedBrace
    else
      let s := { s with depth := s.depth - 1 }
      match s.block with
      | none => s
      | some block => if s.depth = block.outerDepth then s.leaveBlock block else s

/-- Takes in a mark. Only braces and the ends of statements look anything up. -/
def acceptMark? (s : Scanner) : Mark → Except MissingKey Scanner
  | .openBrace => s.openBrace?
  | .closeBrace => s.closeBrace?
  | .semicolon => s.finishStatement?
  | other => .ok (s.acceptMark other)

/-- Takes in a character outside comments. -/
def classify? (limits : Limits) (s : Scanner) (c : Char) (next : Option Char)
    : Except MissingKey (Except Interruption Scanner) :=
  match CharClass.of c next with
  | .mark mark => (s.flushWord.acceptMark? mark).map .ok
  | _ => .ok (s.classify limits c next)

/-- Takes in a character. A limit may stop the scan before anything is looked up. -/
def step? (limits : Limits) (s : Scanner) (c : Char) (next : Option Char)
    : Except MissingKey (Except Interruption Scanner) :=
  match s.capture limits c with
  | .error stopped => .ok (.error stopped)
  | .ok s => if s.inComment then .ok (.ok s) else s.classify? limits c next

/-- Takes in the characters of a line. -/
def steps? (limits : Limits) (s : Scanner)
    : List Char → Except MissingKey (Except Interruption Scanner)
  | [] => .ok (.ok s)
  | c :: rest => do
      match ← s.step? limits c rest.head? with
      | .error stopped => return .error stopped
      | .ok s => steps? limits s rest

/-- Scans a line. -/
def scanLine? (limits : Limits) (s : Scanner) (line : List Char)
    : Except MissingKey (Except Interruption Scanner) :=
  (s.startLine.steps? limits line).map (·.map flushWord)

/-- Scans lines one after another. -/
def scanLines? (limits : Limits) (s : Scanner)
    : List (List Char) → Except MissingKey (Except Interruption Scanner)
  | [] => .ok (.ok s)
  | line :: rest => do
      match ← s.scanLine? limits line with
      | .error stopped => return .error stopped
      | .ok s => scanLines? limits s rest

/-- Scans a text to its end. -/
def scan? (limits : Limits) (s : Scanner) (text : String)
    : Except MissingKey (Except Interruption Scanner) :=
  (s.scanLines? limits (Text.lines text.toList)).map (·.map finish)

/-- The outcome of a build whose text is scanned. The vertex stage is looked up to arrange it. -/
def result? (s : Scanner) : Except MissingKey BuildResult :=
  match s.sections.parse s.warnings with
  | (warnings, .error e) => .ok { error := some e, warnings }
  | (warnings, .ok stages) =>
      match stages.arrangeInputs? with
      | none => .error (.stage .vertex)
      | some (arranged, layout) =>
          .ok {
            shader := { stages := arranged, layout, commonSource := s.sources.getD .common "" }
            warnings }

end Scanner

/-- Builds a shader from its text, or stops at the first missing key. -/
def build? (limits : Limits) (text : String) : Except MissingKey BuildResult := do
  match ← ({} : Scanner).scan? limits text with
  | .error stopped =>
      return { error := some (.overflow stopped.overflow), warnings := stopped.scanner.warnings }
  | .ok s => s.result?

namespace Scanner

variable {limits : Limits} {s : Scanner}

theorem keep?_eq {name : Section} (known : name ∈ s.declarations.keys) (d : Declaration)
    : s.keep? name d = .ok (s.keep name d) := by
  unfold keep? keep
  split
  · rfl
  · obtain ⟨earlier, found⟩ :=
      Option.isSome_iff_exists.mp ((OrderedMap.get?_isSome_iff s.declarations name).mpr known)
    rw [found, ← OrderedMap.insert_of_get? found (· ++ [d])]

theorem interpret?_eq {name : Section} (known : name ∈ s.declarations.keys)
    (keywords : List Keyword)
    : s.interpret? name keywords = .ok (s.interpret name keywords) := by
  unfold interpret? interpret
  cases Declaration.read? keywords with
  | none => rfl
  | some reading =>
      have still : name ∈ (s.reportAll (findingsOf reading)).declarations.keys := by
        rw [reportAll_eq]
        exact known
      exact keep?_eq still reading.declaration

/-- A declaration is looked up for the section of the block around it, which was entered. -/
theorem Coherent.finishStatement?_eq (h : s.Coherent)
    : s.finishStatement? = .ok s.finishStatement := by
  rcases Option.eq_none_or_eq_some s.block with outside | ⟨block, inside⟩
  · simp only [finishStatement?, Scanner.finishStatement, outside]
  · have known := h.entered block inside
    simp only [finishStatement?, Scanner.finishStatement, inside]
    split
    · apply interpret?_eq
      exact known
    · rfl

theorem Coherent.acceptMark?_eq (h : s.Coherent) (mark : Mark)
    : s.acceptMark? mark = .ok (s.acceptMark mark) := by
  cases mark with
  | openBrace =>
      have entered
          : (match s.enteredSection? with
              | some name => s.enterBlock name
              | none => s).Coherent := by
        split
        · exact h.enterBlock _
        · exact h
      simp only [acceptMark?, openBrace?, entered.finishStatement?_eq]
      rfl
  | closeBrace =>
      simp only [acceptMark?, closeBrace?, h.finishStatement?_eq]
      rfl
  | semicolon => exact h.finishStatement?_eq
  | openParenthesis => rfl
  | closeParenthesis => rfl
  | comma => rfl
  | equals => rfl

theorem Steady.step?_eq (h : s.Steady limits) (c : Char) (next : Option Char)
    : s.step? limits c next = .ok (s.step limits c next) := by
  have outcome := h.capture c
  unfold step? Scanner.step
  cases captured : s.capture limits c with
  | error stopped => rfl
  | ok u =>
      rw [captured] at outcome
      dsimp only
      split
      · rfl
      · unfold classify?
        split
        · next mark kind =>
            rw [outcome.1.flushWord.coherent.acceptMark?_eq]
            simp only [Scanner.classify, kind]
            rfl
        · rfl

/-- No key is missing along a line, because each character leaves the scan steady. -/
theorem Steady.steps?_eq (h : s.Steady limits) {cs : List Char} (ready : s.Ready limits cs.head?)
    : s.steps? limits cs = .ok (s.steps limits cs) := by
  induction cs generalizing s with
  | nil => rfl
  | cons c rest ih =>
      have outcome := h.step ready rest.head?
      rw [steps?, h.step?_eq, Scanner.steps]
      cases stepped : s.step limits c rest.head? with
      | error stopped => rfl
      | ok u =>
          rw [stepped] at outcome
          exact ih outcome.1 outcome.2

theorem Resting.scanLine?_eq (h : s.Resting limits) (line : List Char)
    : s.scanLine? limits line = .ok (s.scanLine limits line) := by
  unfold scanLine? Scanner.scanLine
  rw [h.startLine_steady.steps?_eq (h.startLine_ready _)]
  cases s.startLine.steps limits line <;> rfl

theorem Resting.scanLines?_eq (h : s.Resting limits) (lines : List (List Char))
    : s.scanLines? limits lines = .ok (s.scanLines limits lines) := by
  induction lines generalizing s with
  | nil => rfl
  | cons line rest ih =>
      have outcome := h.scanLine line
      rw [scanLines?, h.scanLine?_eq, Scanner.scanLines]
      cases scanned : s.scanLine limits line with
      | error stopped => rfl
      | ok u =>
          rw [scanned] at outcome
          exact ih outcome

theorem Resting.scan?_eq (h : s.Resting limits) (text : String)
    : s.scan? limits text = .ok (s.scan limits text) := by
  unfold scan? Scanner.scan
  rw [h.scanLines?_eq]
  cases s.scanLines limits (Text.lines text.toList) <;> rfl

end Scanner

theorem StageMap.arrangeInputs?_of_valid {stages : StageMap} (valid : stages.fault? = none)
    : ∃ arranged, stages.arrangeInputs? = some arranged := by
  unfold fault? at valid
  unfold arrangeInputs?
  cases found : stages.get? .vertex with
  | none => simp [found] at valid
  | some vertex => exact ⟨_, rfl⟩

theorem Scanner.result?_eq (s : Scanner) : s.result? = .ok s.result := by
  simp only [result?, result, Sections.parse, StageMap.validate]
  cases valid : s.sections.assemble.fault? with
  | some e => rfl
  | none =>
      obtain ⟨arranged, found⟩ := StageMap.arrangeInputs?_of_valid valid
      simp only [Shader.ofStages, found]

/-- No key that a build looks up is missing, whatever the text and the limits. -/
theorem build?_eq (limits : Limits) (text : String)
    : build? limits text = .ok (build limits text) := by
  unfold build? build
  rw [(Scanner.resting_start limits).scan?_eq]
  cases ({} : Scanner).scan limits text with
  | error stopped => rfl
  | ok s => exact s.result?_eq

end ShaderReflection
