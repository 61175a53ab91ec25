import ShaderReflection.Build

/-! The scan as a machine over plain registers: a stack of modes, signed depths, a place that may be
outside all sections, and one buffer for the captured source. Nothing ties the registers together,
so what holds between them has to be proved.
-/

namespace ShaderReflection

/-- What a scan takes words for: parts of a statement, or parts of a parameter. -/
inductive Mode where
  | statement
  | parameter
deriving DecidableEq, Repr

/-- The registers of a scan. -/
structure Machine where
  /-- The number of the line being scanned. -/
  lineNumber : Nat := 0
  /-- The modes, the outermost first. -/
  modes : List Mode := [.statement]
  /-- The brace depth. -/
  depth : Int := 0
  /-- The depth at which the current section was entered, or minus one. -/
  startDepth : Int := -1
  /-- The current section, or none. -/
  place : Option Section := none
  /-- The word being read. -/
  word : Buffer := {}
  /-- The source being captured. -/
  captured : Buffer := {}
  /-- Whether the rest of the line is a comment. -/
  inComment : Bool := false
  /-- The statement being read. -/
  statement : Statement := {}
  /-- The name, the value and the slot of the parameter being read. -/
  parameter : PendingParameter := {}
  declarations : OrderedMap (Option Section) (List Declaration) := ∅
  sources : OrderedMap (Option Section) String := ∅
  warnings : Array Warning := #[]
deriving DecidableEq

/-- A machine that a limit has stopped. -/
structure Machine.Stop where
  overflow : Overflow
  machine : Machine
deriving DecidableEq

namespace Machine

-----------------------------------------------------------------------------------------
-- Statements
-----------------------------------------------------------------------------------------

/-- The mode on top of the stack. -/
def mode? (m : Machine) : Option Mode :=
  m.modes.getLast?

/-- Reports a finding at the current line. -/
def report (m : Machine) (finding : Finding) : Machine :=
  { m with warnings := m.warnings.push (.atLine m.lineNumber finding) }

/-- Adds a declaration to those of the current section, if it has a qualifier. -/
def keep (m : Machine) (d : Declaration) : Machine :=
  if d.qualifiers.isEmpty then m
  else { m with declarations := m.declarations.modify m.place (· ++ [d]) }

/-- Takes in what a statement says. -/
def interpret (m : Machine) (keywords : List Keyword) : Machine :=
  match Declaration.read? keywords with
  | none => m
  | some reading => ((Scanner.findingsOf reading).foldl report m).keep reading.declaration

/-- Ends the statement being read. It counts one level above the start of the current section. -/
def finishStatement (m : Machine) : Machine :=
  let keywords := m.statement.keywords
  let m := { m with statement := {} }
  if m.place = none ∨ m.depth ≠ m.startDepth + 1 then m else m.interpret keywords

-----------------------------------------------------------------------------------------
-- Sections
-----------------------------------------------------------------------------------------

/-- Enters a section. The source being captured is not touched. -/
def enterSection (m : Machine) (name : Section) : Machine :=
  let m :=
    if m.declarations.contains (some name) then m.report (.repeatedSection name)
    else { m with declarations := m.declarations.insertIfNew (some name) [] }
  { m with place := some name, startDepth := m.depth }

/-- Closes the current section. The captured source loses its last character and becomes the source
of the section, behind an earlier one, and the buffer is emptied.
-/
def closeSection (m : Machine) : Machine :=
  let source := (m.captured.retract 1).text
  let merged :=
    match m.sources.get? m.place with
    | some earlier => earlier ++ " " ++ source
    | none => source
  { m with
    captured := {}
    sources := m.sources.insert m.place merged
    place := none
    startDepth := -1 }

/-- Opens a scope. Outside all sections the last word may name a section to enter. -/
def openBrace (m : Machine) : Machine :=
  let named :=
    if m.place = none then m.statement.last?.bind fun k => Section.ofKeyword? k.word else none
  let m :=
    match named with
    | some name => m.enterSection name
    | none => m
  let m := m.finishStatement
  { m with depth := m.depth + 1 }

/-- Closes a scope, unless the depth is zero. A section is closed at the depth of its start. -/
def closeBrace (m : Machine) : Machine :=
  let m := m.finishStatement
  if m.depth = 0 then m.report .unbalancedBrace
  else
    let m := { m with depth := m.depth - 1 }
    if m.place ≠ none ∧ m.depth = m.startDepth then m.closeSection else m

-----------------------------------------------------------------------------------------
-- Parameters
-----------------------------------------------------------------------------------------

/-- Gives the parameter being read, if it has a name, to the last keyword, and clears its slots. -/
def commitParameter (m : Machine) : Machine :=
  let p := m.parameter
  { m with
    statement := if p.name = "" then m.statement else m.statement.annotate p.name p.value
    parameter := {} }

/-- Clears the slots and pushes a mode. -/
def openParenthesis (m : Machine) : Machine :=
  { m with parameter := {}, modes := m.modes ++ [.parameter] }

/-- Commits a parameter and pops its mode. -/
def closeParenthesis (m : Machine) : Machine :=
  if m.mode? ≠ some .parameter then m.report .unmatchedParenthesis
  else
    let m := m.commitParameter
    { m with modes := m.modes.dropLast }

/-- Commits a parameter inside a parameter list. -/
def comma (m : Machine) : Machine :=
  if m.mode? = some .parameter then m.commitParameter else m

/-- Pushes the word `=` or, inside a parameter list, turns to the slot of the value. -/
def equals (m : Machine) : Machine :=
  if m.mode? = some .statement then { m with statement := m.statement.push "=" }
  else { m with parameter := { m.parameter with inValue := true } }

-----------------------------------------------------------------------------------------
-- Characters and lines
-----------------------------------------------------------------------------------------

/-- Takes in a word, into the statement or into a slot of the parameter. -/
def acceptWord (m : Machine) (word : String) : Machine :=
  if m.mode? = some .statement then { m with statement := m.statement.push word }
  else { m with parameter := m.parameter.takeWord word }

/-- Takes in a mark. -/
def acceptMark (m : Machine) : Mark → Machine
  | .openBrace => m.openBrace
  | .closeBrace => m.closeBrace
  | .openParenthesis => m.openParenthesis
  | .closeParenthesis => m.closeParenthesis
  | .comma => m.comma
  | .semicolon => m.finishStatement
  | .equals => m.equals

/-- Ends the word being read. -/
def flushWord (m : Machine) : Machine :=
  if m.word.isEmpty then m else { m with word := {} }.acceptWord m.word.text

/-- Adds a character to the word being read. -/
def extendWord (limits : Limits) (m : Machine) (c : Char) : Except Stop Machine :=
  match m.word.appendToWord limits.word c with
  | .error overflow => .error ⟨overflow, m⟩
  | .ok word => .ok { m with word }

/-- Copies a character inside a section to the buffer. -/
def capture (limits : Limits) (m : Machine) (c : Char) : Except Stop Machine :=
  if m.place = none then .ok m
  else
    match m.captured.appendToSource limits.source c with
    | .error overflow => .error ⟨overflow, m⟩
    | .ok captured => .ok { m with captured }

/-- Takes in a character outside comments. -/
def classify (limits : Limits) (m : Machine) (c : Char) (next : Option Char)
    : Except Stop Machine :=
  match CharClass.of c next with
  | .mark mark => .ok (m.flushWord.acceptMark mark)
  | .commentStart => .ok { m.flushWord with inComment := true }
  | .separator => .ok m.flushWord
  | .wordChar => m.extendWord limits c

/-- Takes in a character, given the character behind it on its line. -/
def step (limits : Limits) (m : Machine) (c : Char) (next : Option Char) : Except Stop Machine :=
  match m.capture limits c with
  | .error stop => .error stop
  | .ok m => if m.inComment then .ok m else m.classify limits c next

/-- Takes in the characters of a line. -/
def steps (limits : Limits) (m : Machine) : List Char → Except Stop Machine
  | [] => .ok m
  | c :: rest =>
      match m.step limits c rest.head? with
      | .error stop => .error stop
      | .ok m => steps limits m rest

/-- Scans a line that is not counted. -/
def scanUncounted (limits : Limits) (m : Machine) (line : List Char) : Except Stop Machine :=
  match { m with inComment := false }.steps limits line with
  | .error stop => .error stop
  | .ok m => .ok m.flushWord

/-- Counts a line and scans it. -/
def scanLine (limits : Limits) (m : Machine) (line : List Char) : Except Stop Machine :=
  { m with lineNumber := m.lineNumber + 1 }.scanUncounted limits line

/-- Scans lines one after another. -/
def scanLines (limits : Limits) (m : Machine) : List (List Char) → Except Stop Machine
  | [] => .ok m
  | line :: rest =>
      match m.scanLine limits line with
      | .error stop => .error stop
      | .ok m => scanLines limits m rest

/-- Ends the text. -/
def finish (m : Machine) : Machine :=
  let m := m.flushWord
  let unclosed : List Warning := m.place.toList.map .unclosedSection
  let unpaired : List Warning := if 1 < m.modes.length then [.unclosedParameters] else []
  { m with warnings := m.warnings ++ (unclosed ++ unpaired) }

/-- Scans a text to its end. -/
def scan (limits : Limits) (m : Machine) (text : String) : Except Stop Machine :=
  match m.scanLines limits (Text.lines text.toList) with
  | .error stop => .error stop
  | .ok m => .ok m.finish

/-- The named sections that the machine has collected. -/
def sections (m : Machine) : Sections where
  sources := .ofList (m.sources.entries.filterMap fun e => e.1.map (·, e.2))
  declarations := .ofList (m.declarations.entries.filterMap fun e => e.1.map (·, e.2))

end Machine

end ShaderReflection
