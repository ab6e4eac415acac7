import Classpath.Files.Tree

/-!
Walking a directory. A visit comes by the directory and all that is below it, hidden or not: each
directory before its children, which come in the order of their names and each with all that is
below it before the next. Each directory is opened by its path, and a visit fails if one of the
paths is too long for that. A walk keeps the files that a visit comes by.
-/

set_option autoImplicit false

namespace Classpath

namespace Node

def isFile : Node → Bool
  | .file _ => true
  | .directory _ => false

/-- Name order is that of the bytes. -/
def byName {α : Type} (named : List (Path.Text × α)) : List (Path.Text × α) :=
  named.mergeSort fun a b => a.1.bytes ≤ b.1.bytes

mutual

/-- A node that stands at `path` and all that is below it, each with its own path. -/
def entriesAt (path : Path.Text) : Node → List (Path.Text × Node)
  | .file content => [(path, .file content)]
  | .directory children =>
      (path, .directory children) :: (byName (entriesOfChildren path children)).flatMap (·.2)

/-- The same of each child of a directory at `path`, under the child's name. -/
def entriesOfChildren (path : Path.Text) :
    List (Path.Text × Node) → List (Path.Text × List (Path.Text × Node))
  | [] => []
  | (name, child) :: rest =>
      (name, entriesAt (Path.join path name) child) :: entriesOfChildren path rest

end

mutual

/-- Whether every directory at or below a node that stands at `path` can be opened by its path. -/
def canBeWalked (path : Path.Text) : Node → Bool
  | .file _ => true
  | .directory children =>
      path.bytes.length ≤ FileTree.maxPathSize && childrenCanBeWalked path children

/-- The same of the children of a directory at `path`. -/
def childrenCanBeWalked (path : Path.Text) : List (Path.Text × Node) → Bool
  | [] => true
  | (name, child) :: rest =>
      canBeWalked (Path.join path name) child && childrenCanBeWalked path rest

end

end Node

namespace FileTree

/-- A lone dash means the standard input, which holds no files. -/
def isStandardInput (root : Path.Text) : Bool := Path.components root = [.normal "-"]

/-- Everything at or below `root`. -/
def visit (files : FileTree) (root : Path.Text) : Except Cause (List (Path.Text × Node)) :=
  if isStandardInput root then .ok []
  else
    match files.find root with
    | .ok node => if node.canBeWalked root then .ok (node.entriesAt root) else .error .walkFailed
    | .error _ => .error .walkFailed

/-- The paths of the files among what a visit comes by. -/
def filePaths (entries : List (Path.Text × Node)) : List Path.Text :=
  (entries.filter (·.2.isFile)).map (·.1)

/-- The paths of all files at or below `root`. -/
def walk (files : FileTree) (root : Path.Text) : Except Error (List Path.Text) :=
  match files.visit root with
  | .ok entries => .ok (filePaths entries)
  | .error cause => .error ((Error.ofCause cause).within (.walking root))

end FileTree

end Classpath
