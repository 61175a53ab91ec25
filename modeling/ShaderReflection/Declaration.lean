import ShaderReflection.DataType
import ShaderReflection.Qualifier
import ShaderReflection.Statement

/-! Declarations of variables and how a statement is read as one: what stands before the first
`=` is a type, qualifiers and an identifier, in any order.
-/

namespace ShaderReflection

/-- A declaration of a variable. -/
structure Declaration where
  name : String := ""
  type : DataType := .untyped
  qualifiers : List Qualifier := []
  parameters : OrderedMap Qualifier Parameters := ∅
deriving DecidableEq, Inhabited

namespace Declaration

/-- Whether the declaration has a qualifier. -/
def has (d : Declaration) (qualifier : Qualifier) : Bool :=
  decide (qualifier ∈ d.qualifiers)

/-- The value of a parameter of a qualifier. A missing parameter is empty. -/
def parameter (d : Declaration) (qualifier : Qualifier) (name : String) : String :=
  (d.parameters.getD qualifier ∅).getD name ""

/-- The first keyword that names a type, and the other keywords. -/
def takeType? : List Keyword → Option (DataType × List Keyword)
  | [] => none
  | k :: rest =>
      match DataType.ofKeyword? k.word with
      | some type => some (type, rest)
      | none => (takeType? rest).map fun found => (found.1, k :: found.2)

/-- The qualifiers among some keywords. -/
def qualifiersOf (keywords : List Keyword) : List Qualifier :=
  keywords.filterMap fun k => Qualifier.ofKeyword? k.word

/-- The words among some keywords that are no qualifiers. -/
def namesOf (keywords : List Keyword) : List String :=
  (keywords.filter fun k => (Qualifier.ofKeyword? k.word).isNone).map Keyword.word

/-- The parameter lists of the qualifiers among some keywords. Of a repeated qualifier the first
list that is not empty counts. -/
def parametersOf (keywords : List Keyword) : OrderedMap Qualifier Parameters :=
  keywords.foldl
    (fun found k =>
      match Qualifier.ofKeyword? k.word with
      | some qualifier =>
          if k.parameters.isEmpty then found else found.insertIfNew qualifier k.parameters
      | none => found)
    ∅

/-- The keywords of a statement before its initializer. -/
def beforeInitializer (keywords : List Keyword) : List Keyword :=
  keywords.takeWhile fun k => k.word ≠ "="

/-- A statement read as a declaration. -/
structure Reading where
  declaration : Declaration
  /-- Further words that could have been the identifier. -/
  surplus : List String
deriving DecidableEq

/-- Reads the keywords of a statement as a declaration, if one of them names a type. The first
word that is neither that type nor a qualifier is the identifier. -/
def read? (keywords : List Keyword) : Option Reading :=
  match takeType? (beforeInitializer keywords) with
  | none => none
  | some (type, others) =>
      let names := (namesOf others).dropWhile (· = "")
      some {
        declaration := {
          name := names.headD ""
          type
          qualifiers := qualifiersOf others
          parameters := parametersOf others }
        surplus := names.tail }

/-- Whether a declaration has qualifiers but no identifier. -/
def lacksName (d : Declaration) : Bool :=
  !d.qualifiers.isEmpty && d.name = ""

end Declaration

end ShaderReflection
