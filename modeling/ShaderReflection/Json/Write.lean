import ShaderReflection.Json.Value
import ShaderReflection.Text.Integer
import ShaderReflection.Text.Quoted

/-! JSON text in ASCII: each item and member on a line of its own, two spaces deeper than what holds
it.
-/

namespace ShaderReflection.Json

/-- The escape of a sixteen-bit unit. -/
def unitEscape (n : Nat) : List Char :=
  '\\' :: 'u' :: Text.hexadecimal 4 n

/-- A character inside a string. A character outside the basic plane is written as two units. -/
def writeChar (c : Char) : List Char :=
  if c = '"' then ['\\', '"']
  else if c = '\\' then ['\\', '\\']
  else if c = '\n' then ['\\', 'n']
  else if c = '\r' then ['\\', 'r']
  else if c = '\t' then ['\\', 't']
  else if c = '\x08' then ['\\', 'b']
  else if c = '\x0c' then ['\\', 'f']
  else
    let n := c.toNat
    if 0x20 ≤ n ∧ n < 0x7F then [c]
    else if n < 0x10000 then unitEscape n
    else
      unitEscape (0xD800 + (n - 0x10000) / 0x400) ++ unitEscape (0xDC00 + (n - 0x10000) % 0x400)

/-- A string. -/
def writeString (s : String) : List Char :=
  '"' :: s.toList.flatMap writeChar ++ ['"']

/-- A line break and the blanks of a nesting depth. -/
def newLine (depth : Nat) : List Char :=
  '\n' :: List.replicate (2 * depth) ' '

mutual

/-- A document that stands at a nesting depth. -/
def write (depth : Nat) : Value → List Char
  | .null => "null".toList
  | .bool true => "true".toList
  | .bool false => "false".toList
  | .int n => (toString n).toList
  | .string s => writeString s
  | .array [] => ['[', ']']
  | .array (item :: items) => '[' :: writeItems (depth + 1) (item :: items) ++ newLine depth ++ [']']
  | .object [] => ['{', '}']
  | .object (member :: members) =>
      '{' :: writeMembers (depth + 1) (member :: members) ++ newLine depth ++ ['}']

/-- The items of an array, with commas between them. -/
def writeItems (depth : Nat) : List Value → List Char
  | [] => []
  | [item] => newLine depth ++ write depth item
  | item :: next :: rest =>
      newLine depth ++ write depth item ++ ',' :: writeItems depth (next :: rest)

/-- The members of an object, with commas between them. -/
def writeMembers (depth : Nat) : List (String × Value) → List Char
  | [] => []
  | [(name, value)] =>
      newLine depth ++ writeString name ++ ':' :: ' ' :: write depth value
  | (name, value) :: next :: rest =>
      newLine depth ++ writeString name ++ ':' :: ' ' :: write depth value
        ++ ',' :: writeMembers depth (next :: rest)

end

/-- The text of a document. -/
def text (value : Value) : String :=
  String.ofList (write 0 value ++ ['\n'])

mutual

/-- Whether no integer in a document is too long to be written. -/
def isWritable : Value → Bool
  | .int n => Text.isWritable n
  | .array items => areWritable items
  | .object members => haveWritable members
  | _ => true

/-- Whether no integer in the items of an array is too long to be written. -/
def areWritable : List Value → Bool
  | [] => true
  | item :: rest => isWritable item && areWritable rest

/-- Whether no integer in the members of an object is too long to be written. -/
def haveWritable : List (String × Value) → Bool
  | [] => true
  | (_, value) :: rest => isWritable value && haveWritable rest

end

end ShaderReflection.Json
