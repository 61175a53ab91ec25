/-! Strict UTF-8. A fault is reported with the place and length of the sequence that cannot be
read: the bytes that could still begin a character.
-/

namespace ShaderReflection.Text

/-- What is wrong with a byte sequence. -/
inductive Utf8Fault where
  /-- No character begins with this byte. -/
  | badStart
  /-- The byte behind the sequence cannot continue it. -/
  | badContinuation
  /-- The bytes end inside a character. -/
  | truncated
deriving DecidableEq, Repr

namespace Utf8Fault

/-- The wording of a fault. -/
def reason : Utf8Fault → String
  | badStart => "invalid start byte"
  | badContinuation => "invalid continuation byte"
  | truncated => "unexpected end of data"

end Utf8Fault

/-- A byte sequence that is not UTF-8. -/
structure Utf8Error where
  fault : Utf8Fault
  /-- Where the sequence starts. -/
  position : Nat
  /-- How many bytes it has. -/
  length : Nat
  /-- Its first byte. -/
  first : UInt8
deriving DecidableEq, Repr

/-- The second bytes that may follow a leading byte: surrogates, overlong forms and numbers above
the last code point are excluded here. -/
def isSecondByte (lead byte : UInt8) : Bool :=
  let low : UInt8 := if lead = 0xE0 then 0xA0 else if lead = 0xF0 then 0x90 else 0x80
  let high : UInt8 := if lead = 0xED then 0x9F else if lead = 0xF4 then 0x8F else 0xBF
  low ≤ byte && byte ≤ high

/-- Whether a byte may stand in third or fourth place. -/
def isTrailByte (byte : UInt8) : Bool :=
  0x80 ≤ byte && byte ≤ 0xBF

/-- The number made of the low bits of a leading byte and of six bits of each byte behind it. -/
def codePoint (leadBits : Nat) (trail : List UInt8) : Nat :=
  trail.foldl (fun n byte => 64 * n + byte.toNat % 64) leadBits

/-- Reads the characters of a byte sequence that starts at a position, behind those already
read. -/
def decodeFrom (position : Nat) (done : Array Char) : List UInt8 → Except Utf8Error (Array Char)
  | [] => .ok done
  | a :: rest =>
      if a < 0x80 then decodeFrom (position + 1) (done.push (Char.ofNat a.toNat)) rest
      else if a < 0xC2 || 0xF5 ≤ a then .error ⟨.badStart, position, 1, a⟩
      else match rest with
        | [] => .error ⟨.truncated, position, 1, a⟩
        | b :: rest =>
            if !isSecondByte a b then .error ⟨.badContinuation, position, 1, a⟩
            else if a < 0xE0 then
              decodeFrom (position + 2)
                (done.push (Char.ofNat (codePoint (a.toNat % 32) [b]))) rest
            else match rest with
              | [] => .error ⟨.truncated, position, 2, a⟩
              | c :: rest =>
                  if !isTrailByte c then .error ⟨.badContinuation, position, 2, a⟩
                  else if a < 0xF0 then
                    decodeFrom (position + 3)
                      (done.push (Char.ofNat (codePoint (a.toNat % 16) [b, c]))) rest
                  else match rest with
                    | [] => .error ⟨.truncated, position, 3, a⟩
                    | d :: rest =>
                        if !isTrailByte d then .error ⟨.badContinuation, position, 3, a⟩
                        else
                          decodeFrom (position + 4)
                            (done.push (Char.ofNat (codePoint (a.toNat % 8) [b, c, d]))) rest

/-- The characters of a byte sequence. -/
def decodeUtf8 (bytes : List UInt8) : Except Utf8Error (List Char) :=
  (decodeFrom 0 #[] bytes).map Array.toList

end ShaderReflection.Text
