import ShaderReflection.Text.Quoted

/-! The closed vocabularies of a shader description, and words that are not in them. -/

namespace ShaderReflection

/-- A closed vocabulary of a shader description. -/
inductive Vocabulary where
  | dataTypes
  | qualifiers
  | sections
deriving DecidableEq, Repr

namespace Vocabulary

/-- What a word of a vocabulary is called in reports. -/
def label : Vocabulary → String
  | dataTypes => "ShaderDataType"
  | qualifiers => "ShaderQualifier"
  | sections => "ShaderSection"

end Vocabulary

/-- A word that is not in the vocabulary in which it was looked up. -/
structure UnknownWord where
  vocabulary : Vocabulary
  word : String
deriving DecidableEq, Repr

namespace UnknownWord

/-- The wording of a failed look-up. -/
def message (unknown : UnknownWord) : String :=
  Text.quoted unknown.word ++ " is not a valid " ++ unknown.vocabulary.label

end UnknownWord

namespace Vocabulary

/-- The outcome of looking a word up: what it names, or a report that it names nothing. -/
def report {α : Type} (vocabulary : Vocabulary) (word : String) : Option α → Except UnknownWord α
  | some found => .ok found
  | none => .error { vocabulary, word }

end Vocabulary

end ShaderReflection
