import ShaderReflection.Text.Integer

/-! Character buffers with a limit: the pending word of a scan and the captured source of a
section. The view of a buffer is its text.
-/

namespace ShaderReflection

/-- A buffer would have grown beyond its limit. -/
inductive Overflow where
  /-- A word is too long. The text is the beginning of that word. -/
  | word (limit : Int) (start : String)
  /-- The source of a section is too long. -/
  | source (limit : Int)
deriving DecidableEq, Repr

namespace Overflow

/-- The limit that does not admit the character. -/
def limit : Overflow → Int
  | word limit _ => limit
  | source limit => limit

/-- The wording of an overflow. -/
def message : Overflow → String
  | word limit start =>
      "Word longer than " ++ toString limit ++ " characters: '" ++ start ++ "...'"
  | source limit => "Section source longer than " ++ toString limit ++ " characters"

/-- The wording of an overflow where it is written. A limit with too many digits cannot be, and what
is said of that limit comes in place of the wording. -/
def written (overflow : Overflow) : Except String String :=
  if Text.isWritable overflow.limit then .ok overflow.message else .error Text.tooLongMessage

end Overflow

/-- The largest numbers of characters that a word and the source of a section may have. Any
integer may be given; one that is not positive admits no character. -/
structure Limits where
  word : Option Int := none
  source : Option Int := none
deriving DecidableEq, Repr, Inhabited

/-- A text that grows at its end. -/
structure Buffer where
  chars : Array Char := #[]
deriving DecidableEq, Repr, Inhabited

namespace Buffer

/-- The number of characters. -/
def size (b : Buffer) : Nat :=
  b.chars.size

/-- The text in the buffer. -/
def text (b : Buffer) : String :=
  String.ofList b.chars.toList

/-- Whether the buffer holds nothing. -/
def isEmpty (b : Buffer) : Bool :=
  b.chars.isEmpty

/-- Adds a character. -/
def push (b : Buffer) (c : Char) : Buffer :=
  { chars := b.chars.push c }

@[simp]
theorem toList_push (b : Buffer) (c : Char)
    : (b.push c).chars.toList = b.chars.toList ++ [c] := by
  simp [push]

@[simp]
theorem size_push (b : Buffer) (c : Char) : (b.push c).size = b.size + 1 := by
  simp [size, push]

/-- Takes back the last characters. Taking back as many as there are, or more, empties the buffer;
an amount that is not positive takes back nothing. -/
def retract (b : Buffer) (amount : Int) : Buffer :=
  { chars := b.chars.take (b.size - amount.toNat) }

/-- How many characters of a word an overflow shows. -/
def shownLength : Nat := 32

/-- The overflow that one more character of a word would cause. -/
def wordOverflow? (limit : Option Int) (b : Buffer) : Option Overflow :=
  match limit with
  | some n =>
      if n ≤ b.size then some (.word n (String.ofList (b.chars.toList.take shownLength))) else none
  | none => none

/-- The overflow that one more character of a section's source would cause. -/
def sourceOverflow? (limit : Option Int) (b : Buffer) : Option Overflow :=
  match limit with
  | some n => if n ≤ b.size then some (.source n) else none
  | none => none

/-- Line breaks, carriage returns and tabs are left out of a section's source. -/
def isLeftOut (c : Char) : Bool :=
  c == '\n' || c == '\r' || c == '\t'

/-- Adds a character to a word. -/
def appendToWord (limit : Option Int) (b : Buffer) (c : Char) : Except Overflow Buffer :=
  match b.wordOverflow? limit with
  | some overflow => .error overflow
  | none => .ok (b.push c)

/-- Adds a character to the source of a section, unless it is one of those left out. -/
def appendToSource (limit : Option Int) (b : Buffer) (c : Char) : Except Overflow Buffer :=
  if isLeftOut c then .ok b
  else match b.sourceOverflow? limit with
    | some overflow => .error overflow
    | none => .ok (b.push c)

end Buffer

end ShaderReflection
