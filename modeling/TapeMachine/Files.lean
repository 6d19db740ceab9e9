/-!
# Files

A directory maps names to files and directories. A path is read by walking down from the directory
it starts in; what stands at its end has to be a file that holds text.
-/
namespace TapeMachine.Files

/-- Why no text can be had from a path or a stream. -/
inductive Failure where
  | notFound
  | notDirectory
  | isDirectory
  | notText
  /-- Any other reason, as the system words it. -/
  | system (message : String)
  deriving DecidableEq

def Failure.message : Failure → String
  | notFound => "No such file or directory (os error 2)"
  | notDirectory => "Not a directory (os error 20)"
  | isDirectory => "Is a directory (os error 21)"
  | notText => "stream did not contain valid UTF-8"
  | system message => message

/-- The text that bytes encode. -/
def decode (bytes : ByteArray) : Except Failure String :=
  match String.fromUTF8? bytes with
  | some text => .ok text
  | none => .error .notText

/-- A way to get the text at a path. -/
abbrev Source := String → Except Failure String

/-- A file with its bytes, or a directory. -/
inductive Node where
  | file (bytes : ByteArray)
  | directory

/-- Nodes by the names on their paths, outermost first. Of two at one path the first counts. -/
abbrev Tree := List (List String × Node)

/-- What stands between the slashes of a path. -/
def names (path : String) : List String := (path.split '/').toStringList

namespace Tree

/-- The tree with a node at a path, in place of what stood there. -/
def put (tree : Tree) (path : String) (node : Node) : Tree :=
  ((names path).filter fun name => name ≠ "" ∧ name ≠ ".", node) :: tree

/-- What stands at a path. A directory is also there if something stands below it. -/
def node? (tree : Tree) (path : List String) : Option Node :=
  if path = [] then some .directory
  else
    match tree.find? (·.1 = path) with
    | some (_, node) => some node
    | none => if tree.any (path.isPrefixOf ·.1) then some .directory else none

/-- Walks from `done` along the names that are left and gives the names of the node at the end. -/
def walk (tree : Tree) (done : List String) : List String → Except Failure (List String)
  | [] => .ok done
  | name :: names =>
    match tree.node? done with
    | none => .error .notFound
    | some (.file _) => .error .notDirectory
    | some .directory =>
      if name = "" ∨ name = "." then walk tree done names
      else if name = ".." then walk tree done.dropLast names
      else walk tree (done ++ [name]) names

/-- The text of the file at a path. An absolute path starts at a root outside the tree, where there
is nothing. -/
def source (tree : Tree) : Source := fun path => do
  if path = "" then throw .notFound
  let tree : Tree := if path.startsWith "/" then [] else tree
  let found ← tree.walk [] (names path)
  match tree.node? found with
  | none => throw .notFound
  | some .directory => throw .isDirectory
  | some (.file bytes) => decode bytes

end Tree

end TapeMachine.Files
