import Classpath.Bytes
import Classpath.Error
import Classpath.Files.Path

/-!
A tree of files, in which paths are looked up piece by piece from a working directory. Everything
in front of a slash must be a directory, and two dots lead back up. Names and paths have a greatest
size.
-/

set_option autoImplicit false

namespace Classpath

inductive Node where
  | file (content : Bytes)
  /-- The names of the children are distinct. -/
  | directory (children : List (Path.Text × Node))

namespace Node

def empty : Node := .directory []

def maxNameSize : Nat := 255

/-- Follows `pieces` from a node below `ancestors`, the nearest first. Above the topmost directory
there is nothing but itself. -/
def follow : List Node → Node → List Path.Text → Except Cause Node
  | _, node, [] => .ok node
  | _, .file _, _ :: _ => .error .notADirectory
  | ancestors, .directory children, piece :: pieces =>
      if Path.isIdle piece then follow ancestors (.directory children) pieces
      else if Path.isParent piece then
        match ancestors with
        | [] => follow [] (.directory children) pieces
        | above :: ancestors => follow ancestors above pieces
      else if maxNameSize < piece.bytes.length then .error .nameTooLong
      else
        match children.lookup piece with
        | some child => follow (.directory children :: ancestors) child pieces
        | none => .error .fileNotFound

def children : Option Node → List (Path.Text × Node)
  | some (.directory children) => children
  | _ => []

/-- Goes down from a node below `ancestors`, the nearest first, to the end of `names`. The nodes
that are left above are given with the one that is reached. -/
def descend? : List Node → Node → List Path.Text → Option (List Node × Node)
  | ancestors, node, [] => some (ancestors, node)
  | ancestors, node, name :: names =>
      match (children (some node)).lookup name with
      | some child => descend? (node :: ancestors) child names
      | none => none

/-- The children with one of them put in or replaced. -/
def put (name : Path.Text) (node : Node) : List (Path.Text × Node) → List (Path.Text × Node)
  | [] => [(name, node)]
  | child :: rest => if child.1 = name then (name, node) :: rest else child :: put name node rest

/-- Changes what stands at the end of `names`, making directories on the way there. -/
def alter (change : Option Node → Option Node) : List Path.Text → Option Node → Option Node
  | [], node => change node
  | name :: names, node =>
      match alter change names ((children node).lookup name) with
      | some child => some (.directory (put name child (children node)))
      | none => node.map fun
        | .file content => .file content
        | .directory children => .directory (children.filter (·.1 ≠ name))

end Node

structure FileTree where
  root : Node
  /-- The names that lead from the root to the working directory. -/
  workingDirectory : List Path.Text

namespace FileTree

/-- A tree with nothing but an empty working directory. It has no name, so that no path leads into
it but from there. -/
def empty : FileTree := ⟨.directory [(⟨[]⟩, Node.empty)], [⟨[]⟩]⟩

def maxPathSize : Nat := 4095

def find (files : FileTree) (path : Path.Text) : Except Cause Node :=
  if path.bytes = [] then .error .fileNotFound
  else if path.bytes.contains 0 then .error .nulInPath
  else if maxPathSize < path.bytes.length then .error .nameTooLong
  else if Path.isAbsolute path then Node.follow [] files.root (Path.pieces path)
  else
    match Node.descend? [] files.root files.workingDirectory with
    | some (above, here) => Node.follow above here (Path.pieces path)
    | none => .error .fileNotFound

def isDirectory (files : FileTree) (path : Path.Text) : Bool :=
  match files.find path with
  | .ok (.directory _) => true
  | _ => false

def read (files : FileTree) (path : Path.Text) : Except Cause Bytes :=
  match files.find path with
  | .ok (.file content) => .ok content
  | .ok (.directory _) => .error .isADirectory
  | .error cause => .error cause

/-- The names from the root to where `components` lead. -/
def namesTo (files : FileTree) (components : List Path.Component) : List Path.Text :=
  (components.foldl (fun names component => component.step names)
    files.workingDirectory.reverse).reverse

def alter (files : FileTree) (components : List Path.Component)
    (change : Option Node → Option Node) : FileTree :=
  let root := Node.alter change (files.namesTo components) (some files.root)
  { files with root := root.getD Node.empty }

/-- Makes the directories that are missing on the way and at its end. Those that double dots leave
again are made as well. -/
def makeDirectories (files : FileTree) (components : List Path.Component) : FileTree :=
  (List.range (components.length + 1)).foldl (fun files count =>
    files.alter (components.take count) fun
      | some (.directory children) => some (.directory children)
      | _ => some Node.empty) files

def makeDirectory (files : FileTree) (path : Path.Text) : FileTree :=
  files.makeDirectories (Path.components path)

/-- Puts a node at the path in the place of what is there. -/
def put (files : FileTree) (path : Path.Text) (node : Node) : FileTree :=
  let components := Path.components path
  (files.makeDirectories components.dropLast).alter components fun _ => some node

def write (files : FileTree) (path : Path.Text) (content : Bytes) : FileTree :=
  files.put path (.file content)

/-- Removes the file at the path, if there is one. -/
def remove (files : FileTree) (path : Path.Text) : FileTree :=
  match files.find path with
  | .ok (.file _) => files.alter (Path.components path) fun _ => none
  | _ => files

end FileTree

end Classpath
