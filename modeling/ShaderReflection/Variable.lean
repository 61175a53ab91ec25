import ShaderReflection.DataType

/-! Interface variables of a stage. -/

namespace ShaderReflection

/-- The location of a variable that has none. -/
def unlocated : Int := -1

/-- An interface variable of a stage. -/
structure Variable where
  name : String
  type : DataType := .untyped
  flat : Bool := false
  location : Int := unlocated
deriving DecidableEq, Repr

namespace Variable

/-- Whether the variable has a location of its own. -/
def isLocated (v : Variable) : Bool :=
  v.location != unlocated

/-- Whether one variable may stand before another in a vertex record: variables without a location
come first, the others follow by location. -/
def precedes (v w : Variable) : Bool :=
  match v.isLocated, w.isLocated with
  | false, _ => true
  | true, false => false
  | true, true => decide (v.location ≤ w.location)

/-- Variables in the order of a vertex record. Variables that may stand in either order keep the
order they had. -/
def arrange (inputs : List Variable) : List Variable :=
  inputs.mergeSort precedes

end Variable

end ShaderReflection
