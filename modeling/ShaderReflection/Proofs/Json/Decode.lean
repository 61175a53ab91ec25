import ShaderReflection.Json.Value
import ShaderReflection.OrderedMap

/-! A decoder for JSON texts, rule by rule after the grammar of RFC 8259. It knows nothing of how
texts are written: blanks may stand around every value and mark, all escapes are read, hexadecimal
digits may have either case, and surrogates are joined. A number with a fraction or an exponent is
refused, since no document holds one.
-/

namespace ShaderReflection.Json

/-- Space, tab, line break and carriage return may stand around values and marks. -/
def isWhitespace (c : Char) : Bool :=
  c == ' ' || c == '\t' || c == '\n' || c == '\r'

/-- A text from its first character on that is no whitespace. -/
def skipWhitespace (cs : List Char) : List Char :=
  cs.dropWhile isWhitespace

-----------------------------------------------------------------------------------------
-- Strings
-----------------------------------------------------------------------------------------

/-- The value of a hexadecimal digit. -/
def hexValue? (c : Char) : Option Nat :=
  if '0' ≤ c ∧ c ≤ '9' then some (c.toNat - '0'.toNat)
  else if 'a' ≤ c ∧ c ≤ 'f' then some (c.toNat - 'a'.toNat + 10)
  else if 'A' ≤ c ∧ c ≤ 'F' then some (c.toNat - 'A'.toNat + 10)
  else none

/-- The number that hexadecimal digits denote behind those of a given number. -/
def hexNumber? (n : Nat) : List Char → Option Nat
  | [] => some n
  | c :: rest => (hexValue? c).bind fun digit => hexNumber? (16 * n + digit) rest

/-- The character that a letter or mark behind a backslash stands for. -/
def escaped? : Char → Option Char
  | '"' => some '"'
  | '\\' => some '\\'
  | '/' => some '/'
  | 'b' => some '\x08'
  | 'f' => some '\x0c'
  | 'n' => some '\n'
  | 'r' => some '\r'
  | 't' => some '\t'
  | _ => none

/-- Reads a string behind its opening quote, up to its closing one. The result has the number of
each character; an escaped number may be half of a character. Control characters must be escaped.
-/
def readUnits : List Char → Option (List Nat × List Char)
  | [] => none
  | c :: rest =>
      if c = '"' then some ([], rest)
      else if c = '\\' then
        match rest with
        | 'u' :: h₁ :: h₂ :: h₃ :: h₄ :: rest =>
            (hexNumber? 0 [h₁, h₂, h₃, h₄]).bind fun n =>
              (readUnits rest).map fun found => (n :: found.1, found.2)
        | e :: rest =>
            (escaped? e).bind fun d =>
              (readUnits rest).map fun found => (d.toNat :: found.1, found.2)
        | [] => none
      else if c.toNat < 0x20 then none
      else (readUnits rest).map fun found => (c.toNat :: found.1, found.2)

/-- Whether a number is the first half of a character outside the basic plane. -/
def isHighSurrogate (n : Nat) : Bool :=
  decide (0xD800 ≤ n ∧ n < 0xDC00)

/-- Whether a number is the second half of a character outside the basic plane. -/
def isLowSurrogate (n : Nat) : Bool :=
  decide (0xDC00 ≤ n ∧ n < 0xE000)

/-- The characters with the given numbers, halves joined. A half alone is no character. -/
def joinUnits : List Nat → Option (List Char)
  | [] => some []
  | n :: rest =>
      if isHighSurrogate n then
        match rest with
        | [] => none
        | m :: rest =>
            if isLowSurrogate m then
              (joinUnits rest).map
                (Char.ofNat (0x10000 + 0x400 * (n - 0xD800) + (m - 0xDC00)) :: ·)
            else none
      else if isLowSurrogate n then none
      else (joinUnits rest).map (Char.ofNat n :: ·)

/-- Reads a string behind its opening quote. -/
def readString (cs : List Char) : Option (String × List Char) :=
  (readUnits cs).bind fun found =>
    (joinUnits found.1).map fun chars => (String.ofList chars, found.2)

-----------------------------------------------------------------------------------------
-- Numbers and literal names
-----------------------------------------------------------------------------------------

/-- Whether a text goes on with a fraction or an exponent. -/
def continuesNumber (cs : List Char) : Bool :=
  cs.head?.any fun c => c == '.' || c == 'e' || c == 'E'

/-- Reads a natural number in decimal, without leading zeros. -/
def readNatural (cs : List Char) : Option (Nat × List Char) :=
  let digits := cs.takeWhile Char.isDigit
  let rest := cs.dropWhile Char.isDigit
  if digits.isEmpty || (digits.head? == some '0' && digits.length != 1) || continuesNumber rest then
    none
  else some (Nat.ofDigitChars 10 digits 0, rest)

/-- Reads an integer in decimal. -/
def readInteger : List Char → Option (Int × List Char)
  | '-' :: rest => (readNatural rest).map fun found => (-(found.1 : Int), found.2)
  | cs => (readNatural cs).map fun found => ((found.1 : Int), found.2)

/-- Reads a value that is neither a string nor an array nor an object. -/
def readPlain : List Char → Option (Value × List Char)
  | 'n' :: 'u' :: 'l' :: 'l' :: rest => some (.null, rest)
  | 't' :: 'r' :: 'u' :: 'e' :: rest => some (.bool true, rest)
  | 'f' :: 'a' :: 'l' :: 's' :: 'e' :: rest => some (.bool false, rest)
  | cs => (readInteger cs).map fun found => (.int found.1, found.2)

-----------------------------------------------------------------------------------------
-- Arrays and objects
-----------------------------------------------------------------------------------------

variable {α : Type}

/-- Reads elements with commas between them, at least one and at most as many as given, up to the
closing mark. -/
def readSeparated (element : List Char → Option (α × List Char)) (close : Char)
    : Nat → List Char → Option (List α × List Char)
  | 0, _ => none
  | count + 1, cs =>
      match element (skipWhitespace cs) with
      | none => none
      | some (first, rest) =>
          match skipWhitespace rest with
          | [] => none
          | c :: rest =>
              if c = close then some ([first], rest)
              else if c = ',' then
                (readSeparated element close count rest).map fun found =>
                  (first :: found.1, found.2)
              else none

/-- Reads elements behind an opening mark, up to the closing one. There may be none. -/
def readEnclosed (element : List Char → Option (α × List Char)) (close : Char) (cs : List Char)
    : Option (List α × List Char) :=
  match skipWhitespace cs with
  | [] => none
  | c :: rest => if c = close then some ([], rest) else readSeparated element close cs.length cs

/-- Reads a member of an object: its name, a colon, and its value. -/
def readMember (value : List Char → Option (Value × List Char))
    : List Char → Option ((String × Value) × List Char)
  | '"' :: cs =>
      match readString cs with
      | none => none
      | some (name, rest) =>
          match skipWhitespace rest with
          | ':' :: rest =>
              (value (skipWhitespace rest)).map fun found => ((name, found.1), found.2)
          | _ => none
  | _ => none

/-- The object with the given members. Of members with the same name the last value counts, at the
place of the first. -/
def objectOf (members : List (String × Value)) : Value :=
  .object (OrderedMap.ofList members).entries

/-- Reads a value that is nested no deeper than given. -/
def readValue : Nat → List Char → Option (Value × List Char)
  | 0, _ => none
  | depth + 1, cs =>
      match cs with
      | '"' :: rest => (readString rest).map fun found => (.string found.1, found.2)
      | '[' :: rest =>
          (readEnclosed (readValue depth) ']' rest).map fun found => (.array found.1, found.2)
      | '{' :: rest =>
          (readEnclosed (readMember (readValue depth)) '}' rest).map fun found =>
            (objectOf found.1, found.2)
      | _ => readPlain cs

/-- The document that a text holds, if it holds one and nothing else. No value is nested deeper than
its text is long.
-/
def decode? (text : String) : Option Value :=
  match readValue text.length (skipWhitespace text.toList) with
  | some (value, rest) => if (skipWhitespace rest).isEmpty then some value else none
  | none => none

example
    : decode? "\t[\"\\u00E9\\ud834\\uDD1e\\/\" , -0]\r\n"
      = some (.array [.string "é𝄞/", .int 0]) := by
  cbv

example
    : ∀ text ∈ ["[01]", "[1,]", "[1] 2", "1.5", "\"\\ud834\"", "\"\t\""],
        (decode? text).isNone := by
  decide +kernel

end ShaderReflection.Json
