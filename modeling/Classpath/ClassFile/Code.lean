import Classpath.ClassFile.Header

/-!
Carving one method's instructions out of the bytes of a class. The walk steps over everything by
its length, looks at no more than the names of the methods before the wanted one, and stops at the
first method that has the wanted name and descriptor.
-/

set_option autoImplicit false

namespace Classpath.ClassFile

/-- The instructions in the first code attribute among `count` attributes: `length` bytes behind
the twelve that open the attribute. Names are taken through any text-like constant. -/
def codeAmong (pool : Pool) (length : Nat) : Nat → Read (Option Bytes)
  | 0 => return none
  | count + 1 => do
      let name ← ofExcept (pool.stringAt (← Read.u16))
      if name = Attribute.codeName then
        Read.discard 12
        return some (← Read.slice length)
      else
        let attributeLength ← Read.u32
        Read.discard attributeLength.toNat
        codeAmong pool length count

/-- The instructions of the first of `count` methods with the name and descriptor. -/
def methodCode (pool : Pool) (owner name descriptor : String) (length : Nat) :
    Nat → Read (Option Bytes)
  | 0 => return none
  | count + 1 => do
      Read.discard 2
      let nameIndex ← Read.u16
      let descriptorIndex ← Read.u16
      let (foundName, foundDescriptor) ←
        ofExcept (pool.declared .method owner nameIndex descriptorIndex)
      if foundName = name ∧ foundDescriptor = descriptor then
        let attributeCount ← Read.u16
        codeAmong pool length attributeCount.toNat
      else
        Attribute.skipTable
        methodCode pool owner name descriptor length count

/-- Steps over `count` fields. -/
def skipFields : Nat → Read Unit
  | 0 => return ()
  | count + 1 => do
      Read.discard 6
      Attribute.skipTable
      skipFields count

/-- Walks a class from its first byte. With a pool at hand the one in the bytes is stepped over,
and otherwise it is read. -/
def readCode (pool? : Option Pool) (owner name descriptor : String) (length : Nat) :
    Read (Option Bytes) := do
  Read.discard 8
  let pool ←
    match pool? with
    | some pool => do
        Pool.skip
        pure pool
    | none => Pool.read
  Read.discard 6
  let interfaceCount ← Read.u16
  Read.discard (2 * interfaceCount.toNat)
  let fieldCount ← Read.u16
  skipFields fieldCount.toNat
  let methodCount ← Read.u16
  methodCode pool owner name descriptor length methodCount.toNat

/-- The first `length` instruction bytes of the method of `cls` with the name and descriptor, in
what are now the bytes of the class. -/
def carve (cls : ClassFile) (pool? : Option Pool) (bytes : Bytes) (name descriptor : String)
    (length : Nat) : Except Error (Option Bytes) :=
  ((readCode pool? cls.name name descriptor length).run bytes).mapError
    (·.within (.loadingBytecode cls.name name descriptor))

/-- The pool in what are now the bytes of the class. -/
def rereadPool (cls : ClassFile) (bytes : Bytes) : Except Error Pool :=
  (do
    Read.discard 8
    during (.loadingPool cls.name) Pool.read : Read Pool).run bytes

end Classpath.ClassFile
