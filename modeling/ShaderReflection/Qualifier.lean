import ShaderReflection.Vocabulary

/-! Qualifiers of declarations. -/

namespace ShaderReflection

/-- A qualifier of a declaration. `unspecified` is named by no word of a shader. -/
inductive Qualifier where
  | unspecified
  | input
  | output
  | uniform
  | layout
  | flat
deriving DecidableEq, Repr, Inhabited

namespace Qualifier

/-- The written form of a qualifier. -/
def keyword : Qualifier → String
  | unspecified => "none"
  | input => "in"
  | output => "out"
  | uniform => "uniform"
  | layout => "layout"
  | flat => "flat"

/-- The qualifiers that a declaration can name. -/
def declarable : List Qualifier :=
  [input, output, uniform, layout, flat]

/-- The qualifier that a word of a declaration names. -/
def ofKeyword? (word : String) : Option Qualifier :=
  declarable.find? (·.keyword = word)

/-- The qualifier with the given written form, the unspecified one included. -/
def ofName? (name : String) : Option Qualifier :=
  (unspecified :: declarable).find? (·.keyword = name)

/-- Looks up the qualifier with the given written form. -/
def ofName (name : String) : Except UnknownWord Qualifier :=
  Vocabulary.qualifiers.report name (ofName? name)

end Qualifier

end ShaderReflection
