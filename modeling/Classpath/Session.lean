import Classpath.Registry.Reload
import Classpath.Registry.Residency

/-!
Sessions: a tree of files that may change, registries over it, and class objects that registries,
holders and snapshots share. Each step of a session does one thing to it and gives one answer.
-/

set_option autoImplicit false

namespace Classpath

/-- A class object, told by a label given to it, or by its class's name in the current registry or
in a snapshot. -/
inductive Target where
  | held (label : String)
  | named (name : String)
  | inSnapshot (label name : String)
  deriving DecidableEq, Repr

inductive Operation where
  /-- Makes a registry, which becomes the current one. -/
  | addRegistry (walker : Option Walker)
  | useRegistry (number : Nat)
  | writeFile (path : Path.Text) (content : Bytes)
  | removeFile (path : Path.Text)
  | scan (path : Path.Text) (own : Bool)
  | reload
  | close
  | listing
  | classes
  | findClass (target : Target)
  /-- Keeps a class object under a label; if there is none, what was kept before stays. -/
  | hold (target : Target) (label : String)
  /-- Keeps the class map of the current registry under a label. -/
  | takeSnapshot (label : String)
  | snapshotClasses (label : String)
  | readClass (name : String)
  | readResource (key : String)
  | openResource (key : String)
  | readClassOf (target : Target)
  /-- Reads the class that goes by the object's name, whatever the object's source is. -/
  | readClassByName (target : Target)
  | releasePool (target : Target)
  | keptPool (target : Target)
  | poolOrLoad (target : Target)
  | loadPool (target : Target)
  | loadCode (target : Target) (name descriptor : String) (length : Nat)
  /-- The instructions of the first method of the class with the name and descriptor. -/
  | methodCode (target : Target) (name descriptor : String)

/-- Makes a registry that walks directories, or one that does not scan them. -/
def Operation.newRegistry (walks : Bool) : Operation :=
  .addRegistry (if walks then some FileTree.walk else none)

structure Listing where
  resources : List String
  classes : List String
  deriving DecidableEq, Repr

inductive Answer where
  | done
  | number (number : Nat)
  | finished (outcome : Except Error Unit) (listing : Listing)
  | listing (listing : Listing)
  | classes (objects : Option (List ClassObject))
  | found (object : Option ClassObject)
  | kept (found : Bool)
  | bytes (outcome : Except Error (Option Bytes))
  | pool (outcome : Except Error (Option Pool))
  | noSuchClass
  | noSuchMethod

structure Session where
  files : FileTree
  objects : Array ClassObject
  registries : Array Registry
  current : Nat
  held : List (String × ClassNumber)
  snapshots : List (String × ClassMap)

namespace Session

def start (files : FileTree) : Session :=
  { files, objects := #[], registries := #[], current := 0, held := [], snapshots := [] }

/-- The current registry; before one is made, an empty one. -/
def registry (session : Session) : Registry :=
  session.registries.getD session.current (Registry.empty none)

def setRegistry (session : Session) (registry : Registry) : Session :=
  { session with registries := session.registries.setIfInBounds session.current registry }

def catalog (session : Session) : Catalog := ⟨session.registry, session.objects⟩

def setCatalog (session : Session) (catalog : Catalog) : Session :=
  { session.setRegistry catalog.registry with objects := catalog.objects }

def currentListing (session : Session) : Listing :=
  ⟨session.registry.resourceKeys, session.registry.classNames⟩

/-- The number of the object that a target tells. -/
def resolve (session : Session) : Target → Option ClassNumber
  | .held label => session.held.lookup label
  | .named name => session.registry.classes[name]?
  | .inSnapshot label name => (session.snapshots.lookup label).bind fun classes => classes[name]?

def object? (session : Session) (target : Target) : Option ClassObject :=
  (session.resolve target).bind fun number => session.objects[number]?

def setObject (session : Session) (number : ClassNumber) (object : ClassObject) : Session :=
  { session with objects := session.objects.setIfInBounds number object }

/-- Runs a step of a scan on the current registry. -/
def runScan (session : Session) (step : Scan Unit) : Answer × Session :=
  match step session.catalog with
  | .ok () catalog =>
      let session := session.setCatalog catalog
      (.finished (.ok ()) session.currentListing, session)
  | .error error catalog =>
      let session := session.setCatalog catalog
      (.finished (.error error) session.currentListing, session)

/-- An answer that needs a class object and changes nothing. -/
def asking (session : Session) (target : Target) (answer : ClassObject → Answer) :
    Answer × Session :=
  match session.object? target with
  | none => (.noSuchClass, session)
  | some object => (answer object, session)

/-- An answer that needs a class object and may change it. -/
def changing (session : Session) (target : Target)
    (change : ClassObject → Answer × ClassObject) : Answer × Session :=
  match session.resolve target with
  | none => (.noSuchClass, session)
  | some number =>
      match session.objects[number]? with
      | none => (.noSuchClass, session)
      | some object =>
          let (answer, object) := change object
          (answer, session.setObject number object)

def step (session : Session) : Operation → Answer × Session
  | .addRegistry walker =>
      let number := session.registries.size
      (.number number, { session with
        registries := session.registries.push (Registry.empty walker), current := number })
  | .useRegistry number => (.number number, { session with current := number })
  | .writeFile path content =>
      (.done, { session with files := session.files.write path content })
  | .removeFile path => (.done, { session with files := session.files.remove path })
  | .scan path own => session.runScan (Scan.scan session.files path own)
  | .reload => session.runScan (Scan.reload session.files)
  | .close =>
      let (outcome, registry) := session.registry.close
      let session := session.setRegistry registry
      (.finished outcome session.currentListing, session)
  | .listing => (.listing session.currentListing, session)
  | .classes =>
      (.classes (some (Registry.objectsOf session.objects session.registry.classes)), session)
  | .findClass target => (.found (session.object? target), session)
  | .hold target label =>
      match session.resolve target with
      | none => (.kept false, session)
      | some number => (.kept true, { session with held := (label, number) :: session.held })
  | .takeSnapshot label =>
      (.done, { session with
        snapshots := (label, session.registry.classes) :: session.snapshots })
  | .snapshotClasses label =>
      (.classes ((session.snapshots.lookup label).map (Registry.objectsOf session.objects)),
        session)
  | .readClass name =>
      (.bytes (session.registry.readClass session.files session.objects name), session)
  | .readResource key => (.bytes (session.registry.readResource session.files key), session)
  | .openResource key => (.bytes (session.registry.openResource session.files key), session)
  | .readClassOf target => session.asking target fun object =>
      .bytes (session.registry.readClassOf session.files object.file)
  | .readClassByName target => session.asking target fun object =>
      .bytes (session.registry.readClass session.files session.objects object.file.name)
  | .releasePool target => session.changing target fun object => (.done, object.releasePool)
  | .keptPool target => session.asking target fun object => .pool (.ok object.pool)
  | .poolOrLoad target => session.changing target fun object =>
      let (outcome, object) := object.poolOrLoad session.registry session.files
      (.pool outcome, object)
  | .loadPool target => session.asking target fun object =>
      .pool (object.loadPool session.registry session.files)
  | .loadCode target name descriptor length => session.asking target fun object =>
      .bytes (object.loadCode session.registry session.files name descriptor length)
  | .methodCode target name descriptor => session.asking target fun object =>
      match object.file.method? name descriptor with
      | none => .noSuchMethod
      | some method => .bytes (object.methodCode session.registry session.files method)

/-- The answers to operations in a row, and the session after them. -/
def run (session : Session) : List Operation → List Answer × Session
  | [] => ([], session)
  | operation :: rest =>
      let (answer, session) := session.step operation
      let (answers, session) := session.run rest
      (answer :: answers, session)

end Session

end Classpath
