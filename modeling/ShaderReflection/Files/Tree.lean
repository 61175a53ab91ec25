import ShaderReflection.Files.ReadError
import ShaderReflection.OrderedMap
import ShaderReflection.Text.Split

/-! A working directory as a value, and reading shader files in it. -/

namespace ShaderReflection

/-- What is found at a place of a directory tree. -/
inductive FileNode where
  | file (bytes : List UInt8)
  | directory
deriving DecidableEq, Repr

/-- The contents of a working directory. Places are written as components from it downwards. -/
structure FileTree where
  nodes : OrderedMap (List String) FileNode := ∅
deriving DecidableEq

namespace FileTree

/-- The tree in which the given nodes were made one after another. -/
def ofList (nodes : List (String × FileNode)) : FileTree :=
  { nodes := .ofList (nodes.map fun node => ((Path.ofText node.1).components, node.2)) }

/-- The node at a place. What has something below it is a directory, and so is the top. -/
def node? (tree : FileTree) (place : List String) : Option FileNode :=
  match tree.nodes.get? place with
  | some node => some node
  | none =>
      if place.isEmpty || tree.nodes.keys.any place.isPrefixOf then some .directory else none

/-- The most bytes that a component of a path may have. -/
def maxComponentSize : Nat := 255

/-- The most bytes that a path may have. -/
def maxPathSize : Nat := 4095

/-- Follows components outside the working directory, where only directories above it are known. -/
def walkOutside : List String → Except PathProblem FileNode
  | [] => .ok .directory
  | component :: rest =>
      if component = ".." then walkOutside rest
      else if maxComponentSize < component.utf8ByteSize then .error .nameTooLong
      else .error .notFound

/-- Follows components from a place whose components are given from the innermost outwards. -/
def walk (tree : FileTree) (place : List String) : List String → Except PathProblem FileNode
  | [] =>
      match tree.node? place.reverse with
      | some node => .ok node
      | none => .error .notFound
  | component :: rest =>
      match tree.node? place.reverse with
      | none => .error .notFound
      | some (.file _) => .error .notADirectory
      | some .directory =>
          if component = ".." then
            match place with
            | [] => walkOutside rest
            | _ :: outer => walk tree outer rest
          else if maxComponentSize < component.utf8ByteSize then .error .nameTooLong
          else walk tree (component :: place) rest

/-- What a path leads to. -/
def find (tree : FileTree) (path : Path) : Except PathProblem FileNode :=
  if maxPathSize < path.text.utf8ByteSize then .error .nameTooLong
  else if path.root = "" then tree.walk [] path.components
  else walkOutside path.components

/-- The bytes of the file that a path leads to. -/
def readBytes (tree : FileTree) (path : Path) : Except ReadError (List UInt8) :=
  if '\x00' ∈ path.text.toList then .error .nullInPath
  else
    match tree.find path with
    | .error problem => .error (.path problem path)
    | .ok .directory => .error (.path .isADirectory path)
    | .ok (.file bytes) => .ok bytes

end FileTree

/-- The text of a shader file: its bytes are UTF-8, and all line endings count as line breaks. -/
def textOfFile (bytes : List UInt8) : Except ReadError String :=
  match Text.decodeUtf8 bytes with
  | .error cause => .error (.encoding cause)
  | .ok cs => .ok (String.ofList (Text.unifyLineEndings cs))

/-- The text of the shader file that a path leads to. -/
def FileTree.readText (tree : FileTree) (path : Path) : Except ReadError String :=
  match tree.readBytes path with
  | .error e => .error e
  | .ok bytes => textOfFile bytes

end ShaderReflection
