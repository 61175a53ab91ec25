/-! Texts cut at a character, and lines in particular. -/

namespace ShaderReflection.Text

/-- Puts a character in front of a text that is cut at a separator. -/
def consPart (separator c : Char) (parts : List (List Char)) : List (List Char) :=
  if c = separator then [] :: parts
  else match parts with
    | [] => [[c]]
    | part :: rest => (c :: part) :: rest

/-- The parts of a text between separators. There is one part more than there are separators. -/
def split (separator : Char) (cs : List Char) : List (List Char) :=
  cs.foldr (consPart separator) [[]]

/-- A text has at least one part. -/
theorem split_ne_nil (separator : Char) (cs : List Char) : split separator cs ≠ [] := by
  cases cs with
  | nil => simp [split]
  | cons c rest =>
      simp only [split, List.foldr_cons, consPart]
      split
      · simp
      · split <;> simp

/-- A separator divides the parts before it from those behind it. -/
theorem split_append (separator : Char) (before behind : List Char)
    : split separator (before ++ separator :: behind)
      = split separator before ++ split separator behind := by
  induction before with
  | nil => simp [split, consPart]
  | cons c rest ih =>
      have step : ∀ cs, split separator (c :: cs) = consPart separator c (split separator cs) :=
        fun _ => rfl
      rw [List.cons_append, step, ih, step]
      unfold consPart
      split
      · rfl
      · cases parts : split separator rest with
        | nil => exact absurd parts (split_ne_nil separator rest)
        | cons part more => rfl

/-- The lines of a text: its parts between line breaks. -/
def lines (cs : List Char) : List (List Char) :=
  split '\n' cs

/-- Puts a character in front of a text whose line endings are line breaks: a carriage return
vanishes before a line break and is a line break otherwise. The flag says whether a line break
stands first in what follows. -/
def consLineEnding (c : Char) (tail : Bool × List Char) : Bool × List Char :=
  if c = '\r' then (false, if tail.1 then tail.2 else '\n' :: tail.2)
  else (c == '\n', c :: tail.2)

/-- A text in which each carriage return, with the line break behind it if there is one, has
become a line break. -/
def unifyLineEndings (cs : List Char) : List Char :=
  (cs.foldr consLineEnding (false, [])).2

end ShaderReflection.Text
