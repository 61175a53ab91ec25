/-! Tokens of a shader text and the classes of characters that make them up. -/

namespace ShaderReflection

/-- A mark that is a token of its own. -/
inductive Mark where
  | openBrace
  | closeBrace
  | openParenthesis
  | closeParenthesis
  | comma
  | semicolon
  | equals
deriving DecidableEq, Repr

namespace Mark

/-- The mark that a character is. -/
def ofChar? : Char → Option Mark
  | '{' => some openBrace
  | '}' => some closeBrace
  | '(' => some openParenthesis
  | ')' => some closeParenthesis
  | ',' => some comma
  | ';' => some semicolon
  | '=' => some equals
  | _ => none

end Mark

/-- A token: a word or a mark. -/
inductive Token where
  | word (text : String)
  | mark (mark : Mark)
deriving DecidableEq, Repr

/-- What a character does outside comments. -/
inductive CharClass where
  /-- The character is a mark. -/
  | mark (mark : Mark)
  /-- The character opens a comment. -/
  | commentStart
  /-- The character only separates words. -/
  | separator
  /-- The character belongs to a word. -/
  | wordChar
deriving DecidableEq, Repr

namespace CharClass

/-- Spaces, tabs, line breaks and carriage returns separate words. -/
def isSeparator (c : Char) : Bool :=
  c == ' ' || c == '\t' || c == '\n' || c == '\r'

/-- The class of a character, given the character behind it on its line. Two slashes open a
comment; a slash alone belongs to a word. -/
def of (c : Char) (next : Option Char) : CharClass :=
  match Mark.ofChar? c with
  | some m => mark m
  | none =>
      if c = '/' ∧ next = some '/' then commentStart
      else if isSeparator c then separator
      else wordChar

end CharClass

end ShaderReflection
