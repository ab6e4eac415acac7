import Classpath.Registry.Basic

/-!
Scanning: what a class file, an archive, a directory or any other file adds to a registry. A scan
that fails keeps what it added before.
-/

set_option autoImplicit false

namespace Classpath

/-- A registry with the class objects there are. -/
structure Catalog where
  registry : Registry
  objects : Array ClassObject

/-- A step of a scan ends well or in an error, and leaves a catalog in either case. -/
abbrev Scan := EStateM Error Catalog

namespace Scan

def addResource (key : String) (entry : Entry) : Scan Unit := do
  let catalog ← get
  match catalog.registry.entries[key]? with
  | some current => throw (.ofCause (.duplicateResource key entry.text current.text))
  | none =>
      let entries := catalog.registry.entries.insert key entry
      set { catalog with registry := { catalog.registry with entries } }

/-- Adds the class behind a key that has been registered. -/
def addClass (files : FileTree) (key : String) (own : Bool) : Scan Unit := do
  let catalog ← get
  match catalog.registry.entries[key]? with
  | none => throw (.ofCause (.resourceNotRegistered key))
  | some entry =>
      let bytes ← ofExcept (entry.read files catalog.registry.archives)
      let (file, pool) ← ofExcept (ClassFile.parse bytes own key)
      if catalog.registry.classes.contains file.name then
        throw (.ofCause (.duplicateClass file.name))
      let classes := catalog.registry.classes.insert file.name catalog.objects.size
      let registry := { catalog.registry with classes }
      set { catalog with registry, objects := catalog.objects.push ⟨file, some pool⟩ }

def classSuffix : String := ".class"

def isClassName (name : String) : Bool := classSuffix.toList.isSuffixOf name.toList

/-- A catalog, and how many resources of the archive being scanned have been registered in it. -/
structure Counted where
  catalog : Catalog
  registered : Nat

/-- A step of scanning an archive, which counts what it registers however it ends. -/
abbrev Counting := EStateM Error Counted

/-- A step that does not count. -/
def uncounted {α : Type} (step : Scan α) : Counting α := fun counted =>
  match step counted.catalog with
  | .ok value catalog => .ok value { counted with catalog }
  | .error error catalog => .error error { counted with catalog }

def countOne : Counting Unit :=
  modify fun counted => { counted with registered := counted.registered + 1 }

/-- Registers members in order. Directories are left out, and with `own` unset so is all but
classes. A resource counts from when it is registered, even if the class behind it is not then. -/
def registerMembers (files : FileTree) (archive : Nat) (path : Path.Text) (own : Bool) :
    List Archive.Listed → Counting Unit
  | [] => return ()
  | member :: rest => do
      if ¬ member.isDirectory ∧ (isClassName member.name ∨ own) then
        uncounted (addResource member.name (.member path archive member.index member.name))
        countOne
        if isClassName member.name then
          uncounted (addClass files member.name own)
      registerMembers files archive path own rest

/-- Registers the members of an archive that has just been opened. -/
def registerArchive (files : FileTree) (archive : Archive) (own : Bool) : Counting Unit := do
  let counted ← get
  let catalog := counted.catalog
  let number := catalog.registry.archives.size
  let archives := catalog.registry.archives.push archive
  set { counted with
    catalog := { catalog with registry := { catalog.registry with archives } } }
  registerMembers files number archive.path own (← ofExcept archive.members)

/-- Opens the archive at a path and registers its members. If no resource has been counted, the
archive is closed again. -/
def scanArchive (files : FileTree) (path : Path.Text) (own : Bool) : Scan Unit := fun catalog =>
  match Archive.openAt files path with
  | .error error => .error error catalog
  | .ok archive =>
      let closeUnused (after : Counted) : Catalog :=
        if after.registered = 0 then
          let archives := after.catalog.registry.archives.modify catalog.registry.archives.size
            Archive.close
          { after.catalog with registry := { after.catalog.registry with archives } }
        else after.catalog
      match during (.scanningArchive path) (registerArchive files archive own) ⟨catalog, 0⟩ with
      | .ok () after => .ok () (closeUnused after)
      | .error error after => .error error (closeUnused after)

/-- Adds a file under a key by the extension of its path. -/
def scanFile (files : FileTree) (key : String) (path : Path.Text) (own : Bool) : Scan Unit := do
  match Path.extension? path with
  | some "class" =>
      addResource key (.file path)
      addClass files key own
  | some "jar" | some "zip" => scanArchive files path own
  | _ => if own then addResource key (.file path)

/-- Adds files in order, each under its path from `root` on. -/
def scanFiles (files : FileTree) (root : Path.Text) (own : Bool) : List Path.Text → Scan Unit
  | [] => return ()
  | path :: rest => do
      scanFile files (Path.relativeKey root path) path own
      scanFiles files root own rest

def scanDirectory (files : FileTree) (root : Path.Text) (own : Bool) : Scan Unit := do
  match (← get).registry.walker with
  | some walk => scanFiles files root own (← ofExcept (walk files root))
  | none => throw (.ofCause (.directoryScanUnsupported root))

/-- A file is added under its name alone. -/
def scan (files : FileTree) (path : Path.Text) (own : Bool) : Scan Unit :=
  if files.isDirectory path then scanDirectory files path own
  else
    match Path.fileName? path with
    | some name => scanFile files name.shown path own
    | none => throw (.ofCause (.noFileName path))

end Scan

end Classpath
