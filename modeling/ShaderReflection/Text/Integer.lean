import ShaderReflection.Text.Blank
import ShaderReflection.Text.DecimalDigit

/-! Integers written in decimal: blanks around them, at most one sign, decimal digits of any
script with single underscores between digits, and no more than a fixed number of digits. The same
number of digits bounds the integers that are written.
-/

namespace ShaderReflection.Text

/-- The most digits that an integer in a text may have, leading zeros included. -/
def digitLimit : Nat := 4300

/-- The digits of a text in which an underscore may stand before each digit. -/
def groupedDigits? : List Char → Option (List Nat)
  | [] => some []
  | '_' :: c :: rest =>
      match decimalValue? c with
      | some d => (groupedDigits? rest).map (d :: ·)
      | none => none
  | c :: rest =>
      match decimalValue? c with
      | some d => (groupedDigits? rest).map (d :: ·)
      | none => none

/-- The digits of a number: at least one, with single underscores only between digits. -/
def digits? : List Char → Option (List Nat)
  | [] => none
  | c :: rest => if c = '_' then none else groupedDigits? (c :: rest)

/-- The number with the given decimal digits, most significant first. -/
def ofDigits (digits : List Nat) : Nat :=
  digits.foldl (fun n d => 10 * n + d) 0

/-- The natural number that a text of digits denotes. -/
def natural? (cs : List Char) : Option Nat :=
  match digits? cs with
  | some digits => if digits.length ≤ digitLimit then some (ofDigits digits) else none
  | none => none

/-- The integer that a text without blanks around it denotes. -/
def signed? : List Char → Option Int
  | '-' :: rest => (natural? rest).map fun n => -(n : Int)
  | '+' :: rest => (natural? rest).map fun n => (n : Int)
  | cs => (natural? cs).map fun n => (n : Int)

/-- The integer that a text denotes. -/
def integer? (text : String) : Option Int :=
  signed? (trimBlanks text.toList)

/-- Whether an integer has no more digits than it may have in a text. -/
def isWritable (n : Int) : Bool :=
  decide (n.natAbs < Nat.pow 10 digitLimit)

/-- What is said of an integer with too many digits to be written. -/
def tooLongMessage : String :=
  "Exceeds the limit (" ++ toString digitLimit ++ " digits) for integer string conversion; "
    ++ "use sys.set_int_max_str_digits() to increase the limit"

end ShaderReflection.Text
