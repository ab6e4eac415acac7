import Std.Data.ExtTreeMap
import Classpath.ClassFile.Code
import Classpath.Files.Walk
import Classpath.Registry.Entry

/-!
The registry: resource keys and what stands behind them, and class names and the classes that go
by them. Class objects live apart from the registries, since others may hold them too; they are
numbered in the order in which they came to be, and a registry refers to them by number.
-/

set_option autoImplicit false

namespace Classpath

/-- A class, with its pool unless that has been released. -/
structure ClassObject where
  file : ClassFile
  pool : Option Pool
  deriving DecidableEq, Repr

abbrev ClassNumber := Nat

abbrev ClassMap := Std.ExtTreeMap String ClassNumber

/-- What lists the files of a directory that is scanned. -/
abbrev Walker := FileTree → Path.Text → Except Error (List Path.Text)

structure Registry where
  /-- Without one, directories are not scanned. -/
  walker : Option Walker
  entries : Std.ExtTreeMap String Entry
  classes : ClassMap
  archives : Array Archive

namespace Registry

def empty (walker : Option Walker) : Registry :=
  { walker, entries := ∅, classes := ∅, archives := #[] }

/-- Ascending. -/
def resourceKeys (registry : Registry) : List String := registry.entries.keys

/-- Ascending. -/
def classNames (registry : Registry) : List String := registry.classes.keys

/-- The class objects of a class map, in the order of their names. -/
def objectsOf (objects : Array ClassObject) (classes : ClassMap) : List ClassObject :=
  classes.toList.filterMap fun (_, number) => objects[number]?

def class? (registry : Registry) (objects : Array ClassObject) (name : String) :
    Option ClassObject :=
  registry.classes[name]?.bind fun number => objects[number]?

/-- The bytes behind a key, or nothing if the key is not registered. -/
def readResource (registry : Registry) (files : FileTree) (key : String) :
    Except Error (Option Bytes) :=
  match registry.entries[key]? with
  | none => .ok none
  | some entry => some <$> entry.read files registry.archives

/-- The bytes of the stream opened behind a key, or nothing if the key is not registered. -/
def openResource (registry : Registry) (files : FileTree) (key : String) :
    Except Error (Option Bytes) :=
  match registry.entries[key]? with
  | none => .ok none
  | some entry => some <$> entry.drain files registry.archives

/-- What are now the bytes of a class, by its source. -/
def readClassOf (registry : Registry) (files : FileTree) (cls : ClassFile) :
    Except Error (Option Bytes) :=
  registry.readResource files cls.source

/-- What are now the bytes of the class that goes by a name, or nothing if none does. -/
def readClass (registry : Registry) (files : FileTree) (objects : Array ClassObject)
    (name : String) : Except Error (Option Bytes) :=
  match registry.class? objects name with
  | none => .ok none
  | some object => registry.readClassOf files object.file

/-- Closes each entry in turn, whether or not others fail to, and gathers the failures. -/
def closeEach : List (String × Entry) → Array Archive → List Error → Array Archive × List Error
  | [], archives, failures => (archives, failures)
  | (key, entry) :: rest, archives, failures =>
      match entry.close archives with
      | .ok archives => closeEach rest archives failures
      | .error error => closeEach rest archives (failures ++ [error.within (.closingEntry key)])

/-- Closes all that is open behind the entries. -/
def close (registry : Registry) : Except Error Unit × Registry :=
  let (archives, failures) := closeEach registry.entries.toList registry.archives []
  (Error.ofCloseFailures failures, { registry with archives })

end Registry

end Classpath
