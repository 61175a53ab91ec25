import ShaderReflection.DataType
import ShaderReflection.Section
import ShaderReflection.StageKind

/-! Warnings: what a build reports without failing. -/

namespace ShaderReflection

/-- What is noticed at a line of a shader text. -/
inductive Finding where
  | unbalancedBrace
  | unmatchedParenthesis
  | repeatedSection (name : Section)
  | surplusIdentifier (found kept : String)
  | missingIdentifier (type : DataType)
deriving DecidableEq, Repr

namespace Finding

/-- The wording of a finding. -/
def message : Finding → String
  | unbalancedBrace => "unbalanced '\x7d' ignored"
  | unmatchedParenthesis => "unmatched ')' ignored"
  | repeatedSection name =>
      "section '" ++ name.keyword ++ "' declared more than once, merging with the earlier block"
  | surplusIdentifier found kept =>
      "found duplicate declaration identifier '" ++ found ++ "' (keeping '" ++ kept ++ "')"
  | missingIdentifier type => type.keyword ++ " declaration has no identifier"

end Finding

/-- A warning. -/
inductive Warning where
  /-- Something noticed while a line was scanned. -/
  | atLine (number : Nat) (finding : Finding)
  /-- The text ended inside a section. -/
  | unclosedSection (name : Section)
  /-- The text ended inside a parameter list. -/
  | unclosedParameters
  /-- The location of a variable is no integer. -/
  | invalidLocation (location name : String) (stage : StageKind)
  /-- Two declarations of a stage have the same identifier. -/
  | duplicateName (name : String) (stage : StageKind)
  /-- A remark that was handed in from outside. -/
  | remark (text : String)
deriving DecidableEq, Repr

namespace Warning

/-- The wording of a warning. -/
def message : Warning → String
  | atLine number finding => "line " ++ toString number ++ ": " ++ finding.message
  | unclosedSection name =>
      "Section '" ++ name.keyword ++ "' is not closed at end of input; its source was discarded"
  | unclosedParameters => "Unclosed parameter list at end of input"
  | invalidLocation location name stage =>
      "Invalid layout location '" ++ location ++ "' for '" ++ name ++ "' in " ++ stage.name
        ++ " stage, treated as unset"
  | duplicateName name stage =>
      "Duplicate interface name '" ++ name ++ "' in " ++ stage.name ++ " stage"
  | remark text => text

end Warning

end ShaderReflection
