import ShaderReflection.Buffer
import ShaderReflection.Declaration
import ShaderReflection.Warning

/-! The state of a scan over a shader text. -/

namespace ShaderReflection

/-- A section block that the scan is inside of. -/
structure Block where
  name : Section
  /-- The brace depth outside the block. -/
  outerDepth : Nat
  /-- The source captured so far. -/
  source : Buffer := {}
deriving DecidableEq

/-- A parameter that is being read: its name, its value, and whether `=` was seen. -/
structure PendingParameter where
  name : String := ""
  value : String := ""
  inValue : Bool := false
deriving DecidableEq, Inhabited

namespace PendingParameter

/-- Takes a word as the name or, behind `=`, as the value. -/
def takeWord (p : PendingParameter) (word : String) : PendingParameter :=
  if p.inValue then { p with value := word } else { p with name := word }

end PendingParameter

/-- The state of a scan. -/
structure Scanner where
  /-- The number of the line being scanned. -/
  lineNumber : Nat := 0
  /-- How many braces are open. -/
  depth : Nat := 0
  /-- The section block around the current position. -/
  block : Option Block := none
  /-- How many parameter lists are open. -/
  openLists : Nat := 0
  /-- The word being read. -/
  word : Buffer := {}
  /-- The statement being read. -/
  statement : Statement := {}
  /-- The parameter being read. -/
  parameter : PendingParameter := {}
  /-- Whether the rest of the line is a comment. -/
  inComment : Bool := false
  /-- The declarations of each section that was entered. -/
  declarations : OrderedMap Section (List Declaration) := ∅
  /-- The source of each section that was closed. -/
  sources : OrderedMap Section String := ∅
  warnings : Array Warning := #[]
deriving DecidableEq, Inhabited

namespace Scanner

/-- Reports a finding at the current line. -/
def report (s : Scanner) (finding : Finding) : Scanner :=
  { s with warnings := s.warnings.push (.atLine s.lineNumber finding) }

/-- Reports findings at the current line, one after another. -/
def reportAll (s : Scanner) (findings : List Finding) : Scanner :=
  findings.foldl report s

end Scanner

end ShaderReflection
