import ShaderReflection.OrderedMap

/-! Statements: the words that a scan collects up to the end of a statement, each with the
parameter list that followed it.
-/

namespace ShaderReflection

/-- Parameters by name, in the order in which they were written. -/
abbrev Parameters := OrderedMap String String

/-- A word of a statement with its parameters. -/
structure Keyword where
  word : String
  parameters : Parameters := ∅
deriving DecidableEq

/-- The words of a statement. They are held latest first, since only the latest one changes. -/
structure Statement where
  latestFirst : List Keyword := []
deriving DecidableEq, Inhabited

namespace Statement

/-- The keywords in the order in which they were written. -/
def keywords (s : Statement) : List Keyword :=
  s.latestFirst.reverse

/-- Whether there is no keyword yet. -/
def isEmpty (s : Statement) : Bool :=
  s.latestFirst.isEmpty

/-- The keyword that was written last. -/
def last? (s : Statement) : Option Keyword :=
  s.latestFirst.head?

/-- Adds a word. -/
def push (s : Statement) (word : String) : Statement :=
  { latestFirst := { word := word } :: s.latestFirst }

/-- Gives the last keyword a parameter, unless it has one of that name. -/
def annotate (s : Statement) (name value : String) : Statement :=
  match s.latestFirst with
  | [] => s
  | last :: earlier =>
      { latestFirst :=
          { last with parameters := last.parameters.insertIfNew name value } :: earlier }

@[simp]
theorem keywords_push (s : Statement) (word : String)
    : (s.push word).keywords = s.keywords ++ [{ word := word }] := by
  simp [keywords, push]

end Statement

end ShaderReflection
