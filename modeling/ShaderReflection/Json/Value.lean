/-! JSON documents whose numbers are integers. Members of an object keep their order. -/

namespace ShaderReflection.Json

/-- A JSON document without fractional numbers. -/
inductive Value where
  | null
  | bool (value : Bool)
  | int (value : Int)
  | string (value : String)
  | array (items : List Value)
  | object (members : List (String × Value))
deriving Repr, Inhabited

end ShaderReflection.Json
