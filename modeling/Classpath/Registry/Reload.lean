import Classpath.Registry.Scan

/-!
Reloading: every class is read again from its source, and new objects take the place of the old
ones, or, if any of them cannot be read or two would go by one name, nothing changes.
-/

set_option autoImplicit false

namespace Classpath

/-- Classes that have been read again, by name. -/
abbrev Reread := Std.ExtTreeMap String ClassObject

namespace Registry

/-- Reads a class again from its source. -/
def reread (registry : Registry) (files : FileTree) (old : ClassFile) :
    Except Error ClassObject := do
  match ← registry.readClassOf files old with
  | none => throw (.ofCause (.resourceGone old.source old.name))
  | some bytes =>
      let (file, pool) ← ClassFile.parse bytes old.own old.source
      return ⟨file, some pool⟩

/-- Adds the classes read again to those in `reread`. -/
def rereadAll (registry : Registry) (files : FileTree) :
    List ClassFile → Reread → Except Error Reread
  | [], done => .ok done
  | old :: rest, done => do
      let object ← registry.reread files old
      if done.contains object.file.name then
        throw (.ofCause (.duplicateClass object.file.name))
      rereadAll registry files rest (done.insert object.file.name object)

end Registry

/-- Gives each object a number of its own and enters it under its name. -/
def Catalog.enterAll (objects : Array ClassObject) (classes : ClassMap) :
    List (String × ClassObject) → Array ClassObject × ClassMap
  | [] => (objects, classes)
  | (name, object) :: rest =>
      enterAll (objects.push object) (classes.insert name objects.size) rest

def Scan.reload (files : FileTree) : Scan Unit := do
  let catalog ← get
  let old := (Registry.objectsOf catalog.objects catalog.registry.classes).map (·.file)
  let reread ← ofExcept (catalog.registry.rereadAll files old ∅)
  let (objects, classes) := Catalog.enterAll catalog.objects ∅ reread.toList
  set { catalog with registry := { catalog.registry with classes }, objects }

end Classpath
