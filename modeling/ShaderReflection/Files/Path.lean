import ShaderReflection.Text.Split

/-! File paths in normal form. -/

namespace ShaderReflection

/-- A path in normal form: no empty components and no `.` components. -/
structure Path where
  /-- The slashes that an absolute path starts with: none, one or two. -/
  root : String := ""
  components : List String := []
deriving DecidableEq, Repr

namespace Path

/-- The root of a written path. Exactly two slashes are a root of their own; more count as one. -/
def rootOf (cs : List Char) : String :=
  match (cs.takeWhile (· = '/')).length with
  | 0 => ""
  | 2 => "//"
  | _ => "/"

/-- The path that a text denotes. -/
def ofText (text : String) : Path :=
  let cs := text.toList
  { root := rootOf cs
    components := ((Text.split '/' cs).map String.ofList).filter fun c => c ≠ "" ∧ c ≠ "." }

/-- The written form of a path. -/
def text (path : Path) : String :=
  let written := path.root ++ "/".intercalate path.components
  if written = "" then "." else written

/-- The last component. It is empty if there is none. -/
def name (path : Path) : String :=
  path.components.getLast?.getD ""

end Path

end ShaderReflection
