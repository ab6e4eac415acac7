import Classpath.Registry.Basic

/-!
Which pools are kept. A pool is kept from when its class was read; it can be released, and is then
read again when it is asked for. Looking at bytes through a class changes nothing of this.
-/

set_option autoImplicit false

namespace Classpath

namespace ClassObject

/-- A pool read afresh from what are now the bytes of the class, or nothing if there are none. -/
def loadPool (object : ClassObject) (registry : Registry) (files : FileTree) :
    Except Error (Option Pool) := do
  match ← registry.readClassOf files object.file with
  | none => return none
  | some bytes => some <$> object.file.rereadPool bytes

/-- The kept pool, or else one read afresh, and the object that keeps it from now on. -/
def poolOrLoad (object : ClassObject) (registry : Registry) (files : FileTree) :
    Except Error (Option Pool) × ClassObject :=
  match object.pool with
  | some pool => (.ok (some pool), object)
  | none =>
      match object.loadPool registry files with
      | .ok (some pool) => (.ok (some pool), { object with pool := some pool })
      | outcome => (outcome, object)

def releasePool (object : ClassObject) : ClassObject := { object with pool := none }

/-- The first `length` instruction bytes of the method with the name and descriptor. -/
def loadCode (object : ClassObject) (registry : Registry) (files : FileTree)
    (name descriptor : String) (length : Nat) : Except Error (Option Bytes) := do
  match ← registry.readClassOf files object.file with
  | none => return none
  | some bytes => object.file.carve object.pool bytes name descriptor length

/-- All instructions of a method of the class, or nothing if it has none. -/
def methodCode (object : ClassObject) (registry : Registry) (files : FileTree)
    (method : Method) : Except Error (Option Bytes) :=
  match method.codeLength with
  | none => .ok none
  | some length => object.loadCode registry files method.name method.descriptor length.toNat

end ClassObject

end Classpath
