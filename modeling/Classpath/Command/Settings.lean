import Classpath.Command.Arguments
import Classpath.Registry.Scan
import Classpath.Text.Blank

/-!
Settings: what a command line and the environment say together.
-/

set_option autoImplicit false

namespace Classpath.Command

structure Settings where
  ownInputs : List Path.Text
  libraryInputs : List Path.Text
  walksDirectories : Bool
  logFilter : String
  deriving DecidableEq, Repr

namespace Settings

def defaultLogFilter : String := "warn"

/-- The paths in a list with colons between them; empty ones are left out. -/
def splitPaths (list : String) : List Path.Text :=
  ((list.toList.splitOn ':').filter (· ≠ [])).map fun piece => (String.ofList piece : Path.Text)

/-- The option wins over the environment, and whichever it is, a blank one is as none. -/
def chooseLogFilter (option environment : Option String) : String :=
  match option.or environment with
  | some filter => if Text.trim filter.toList = [] then defaultLogFilter else filter
  | none => defaultLogFilter

/-- The libraries of the environment come behind those of the command line. -/
def resolve (invocation : Invocation) (libraries logFilter : Option String) :
    Except Error Settings :=
  if invocation.paths = [] then .error (.ofCause .noInput)
  else .ok {
    ownInputs := invocation.paths.map .ofString
    libraryInputs := invocation.libraries.map .ofString ++ (libraries.map splitPaths).getD []
    walksDirectories := !invocation.noWalk
    logFilter := chooseLogFilter invocation.logLevel logFilter }

/-- Every input with whether it is one's own: one's own first, and then the libraries. -/
def inputs (settings : Settings) : List (Path.Text × Bool) :=
  settings.ownInputs.map (·, true) ++ settings.libraryInputs.map (·, false)

/-- Scans inputs in order. -/
def scanAll (files : FileTree) : List (Path.Text × Bool) → Scan Unit
  | [] => return ()
  | (path, own) :: rest => do
      Scan.scan files path own
      scanAll files rest

def walker? (settings : Settings) : Option Walker :=
  if settings.walksDirectories then some FileTree.walk else none

/-- A registry of all inputs. -/
def load (settings : Settings) (files : FileTree) : Except Error Catalog :=
  match scanAll files settings.inputs ⟨Registry.empty settings.walker?, #[]⟩ with
  | .ok () catalog => .ok catalog
  | .error error _ => .error error

end Settings

end Classpath.Command
