import ShaderReflection.Scanner.State
import ShaderReflection.Scanner.Token

/-! What each token does to the state of a scan. -/

namespace ShaderReflection.Scanner

/-! ## Statements -/

/-- What is noticed when a statement is read as a declaration. -/
def findingsOf (reading : Declaration.Reading) : List Finding :=
  let d := reading.declaration
  reading.surplus.map (.surplusIdentifier · d.name)
    ++ if d.lacksName then [.missingIdentifier d.type] else []

/-- Whether statements at this place declare variables of a section: directly inside its block. -/
def declares (s : Scanner) (block : Block) : Bool :=
  s.depth == block.outerDepth + 1

/-- Keeps a declaration of a section, if it has a qualifier. -/
def keep (s : Scanner) (name : Section) (d : Declaration) : Scanner :=
  if d.qualifiers.isEmpty then s
  else { s with declarations := s.declarations.modify name (· ++ [d]) }

/-- Takes in what a statement directly inside a section says. -/
def interpret (s : Scanner) (name : Section) (keywords : List Keyword) : Scanner :=
  match Declaration.read? keywords with
  | none => s
  | some reading => (s.reportAll (findingsOf reading)).keep name reading.declaration

/-- Ends the statement being read. -/
def finishStatement (s : Scanner) : Scanner :=
  let keywords := s.statement.keywords
  let s := { s with statement := {} }
  match s.block with
  | none => s
  | some block => if s.declares block then s.interpret block.name keywords else s

/-! ## Blocks -/

/-- Enters a section block. Blocks of one section share their declarations. -/
def enterBlock (s : Scanner) (name : Section) : Scanner :=
  let s :=
    if s.declarations.contains name then s.report (.repeatedSection name)
    else { s with declarations := s.declarations.insertIfNew name [] }
  { s with block := some { name, outerDepth := s.depth } }

/-- Leaves a section block. Its source is what was captured up to the closing brace, behind the
sources of earlier blocks of the section. -/
def leaveBlock (s : Scanner) (block : Block) : Scanner :=
  let source := (block.source.retract 1).text
  let merged :=
    match s.sources.get? block.name with
    | some earlier => earlier ++ " " ++ source
    | none => source
  { s with sources := s.sources.insert block.name merged, block := none }

/-- The section that an opening brace enters: the one that the last word names, outside all
sections. -/
def enteredSection? (s : Scanner) : Option Section :=
  match s.block with
  | some _ => none
  | none => s.statement.last?.bind fun k => Section.ofKeyword? k.word

/-- Opens a scope, which is a section block if the last word names a section. -/
def openBrace (s : Scanner) : Scanner :=
  let s :=
    match s.enteredSection? with
    | some name => s.enterBlock name
    | none => s
  let s := s.finishStatement
  { s with depth := s.depth + 1 }

/-- Closes a scope, and with its own scope a section block. -/
def closeBrace (s : Scanner) : Scanner :=
  let s := s.finishStatement
  if s.depth = 0 then s.report .unbalancedBrace
  else
    let s := { s with depth := s.depth - 1 }
    match s.block with
    | none => s
    | some block => if s.depth = block.outerDepth then s.leaveBlock block else s

/-! ## Parameter lists -/

/-- Gives the parameter being read, if it has a name, to the last keyword. -/
def commitParameter (s : Scanner) : Scanner :=
  let p := s.parameter
  { s with
    statement := if p.name = "" then s.statement else s.statement.annotate p.name p.value
    parameter := {} }

/-- Opens a parameter list. -/
def openParenthesis (s : Scanner) : Scanner :=
  { s with parameter := {}, openLists := s.openLists + 1 }

/-- Closes a parameter list. -/
def closeParenthesis (s : Scanner) : Scanner :=
  if s.openLists = 0 then s.report .unmatchedParenthesis
  else
    let s := s.commitParameter
    { s with openLists := s.openLists - 1 }

/-- Divides parameters. A comma outside parameter lists does nothing. -/
def comma (s : Scanner) : Scanner :=
  if s.openLists = 0 then s else s.commitParameter

/-- Starts an initializer or, in a parameter list, the value of a parameter. -/
def equals (s : Scanner) : Scanner :=
  if s.openLists = 0 then { s with statement := s.statement.push "=" }
  else { s with parameter := { s.parameter with inValue := true } }

/-! ## Tokens -/

/-- Takes in a word. -/
def acceptWord (s : Scanner) (word : String) : Scanner :=
  if s.openLists = 0 then { s with statement := s.statement.push word }
  else { s with parameter := s.parameter.takeWord word }

/-- Takes in a mark. -/
def acceptMark (s : Scanner) : Mark → Scanner
  | .openBrace => s.openBrace
  | .closeBrace => s.closeBrace
  | .openParenthesis => s.openParenthesis
  | .closeParenthesis => s.closeParenthesis
  | .comma => s.comma
  | .semicolon => s.finishStatement
  | .equals => s.equals

/-- Takes in a token. -/
def accept (s : Scanner) : Token → Scanner
  | .word text => s.acceptWord text
  | .mark mark => s.acceptMark mark

end ShaderReflection.Scanner
