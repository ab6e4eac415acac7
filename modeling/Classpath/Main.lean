import Classpath.Command.Program

/-!
The program itself: takes in the files that its inputs name, runs, and prints.
-/

set_option autoImplicit false

namespace Classpath

/-- The file or directory at a path, with all that is below it, if there is one. -/
partial def readNode (path : String) : IO (Option Node) := do
  let place := (← IO.currentDir) / path
  if ← place.isDir then
    let mut children : List (Path.Text × Node) := []
    for entry in ← place.readDir do
      if let some child ← readNode entry.path.toString then
        children := ((entry.fileName : Path.Text), child) :: children
    return some (.directory children)
  else if ← place.pathExists then
    return some (.file (← IO.FS.readBinFile place).data.toList)
  else
    return none

/-- The paths that lead to a path, the shortest first; the path itself is the last. -/
def leadingPaths (path : String) : List String :=
  let pieces := path.splitOn "/"
  (List.range pieces.length).map fun count => "/".intercalate (pieces.take (count + 1))

/-- Puts what is at a path into a tree: a directory empty, and a file whole. -/
def readPlace (files : FileTree) (path : Path.Text) : IO FileTree := do
  let place := (← IO.currentDir) / path
  if ← place.isDir then
    return files.makeDirectory path
  else if ← place.pathExists then
    return files.write path (← IO.FS.readBinFile place).data.toList
  else
    return files

/-- A tree with what the paths name in their places. -/
def readFiles (paths : List Path.Text) : IO FileTree := do
  let here := (← IO.currentDir).toString
  let names := (Path.components here).filterMap fun component =>
    match component with
    | .normal name => some name
    | _ => none
  let bare : FileTree := { root := Node.empty, workingDirectory := names }
  let mut files := bare.makeDirectory "."
  for path in paths do
    for leading in leadingPaths path do
      files ← readPlace files leading
    if let some node ← readNode path then
      files := files.put path node
  return files

/-- The paths that a command line and the environment name as inputs. -/
def inputPaths (words : List String) (libraries logFilter : Option String) : List Path.Text :=
  match Command.parse words with
  | .error _ => []
  | .ok invocation =>
      match Command.Settings.resolve invocation libraries logFilter with
      | .error _ => []
      | .ok settings => settings.inputs.map (·.1)

end Classpath

def main (words : List String) : IO UInt32 := do
  let libraries ← IO.getEnv "CLASS_STORE_LIBS"
  let logFilter ← IO.getEnv "RUST_LOG"
  let files ← Classpath.readFiles (Classpath.inputPaths words libraries logFilter)
  let outcome := Classpath.Command.run files words libraries logFilter
  let output ← IO.getStdout
  output.write (ByteArray.mk outcome.output.toArray)
  output.flush
  if outcome.complaint ≠ "" then
    IO.eprintln outcome.complaint
  return UInt32.ofNat outcome.exitCode
