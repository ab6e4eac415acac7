import Classpath.ClassFile.Attribute
import Classpath.Digest.Sha256

/-!
Class files: what one pass over the bytes of a class keeps of it. Names are resolved through the
pool as they are read; of a method's code only the length is kept.
-/

set_option autoImplicit false

namespace Classpath

structure Field where
  accessFlags : UInt16
  name : String
  descriptor : String
  deriving DecidableEq, Repr

structure Method where
  accessFlags : UInt16
  name : String
  descriptor : String
  /-- The length of the instructions, if the method has any. -/
  codeLength : Option UInt32
  deriving DecidableEq, Repr

structure ClassFile where
  /-- With slashes between its parts. -/
  name : String
  superName : Option String
  interfaces : List String
  accessFlags : UInt16
  minorVersion : UInt16
  majorVersion : UInt16
  fields : List Field
  methods : List Method
  /-- The resource key that the bytes stand behind. -/
  source : String
  contentHash : String
  /-- Whether the class comes from an input of one's own and not from a library. -/
  own : Bool
  deriving DecidableEq, Repr

namespace ClassFile

def magic : UInt32 := 0xCAFEBABE

def readField (pool : Pool) (owner : String) : Read Field := do
  let accessFlags ← Read.u16
  let name ← Read.u16
  let descriptor ← Read.u16
  let (name, descriptor) ← ofExcept (pool.declared .field owner name descriptor)
  Attribute.skipTable
  return { accessFlags, name, descriptor }

def readMethod (pool : Pool) (owner : String) : Read Method := do
  let accessFlags ← Read.u16
  let name ← Read.u16
  let descriptor ← Read.u16
  let (name, descriptor) ← ofExcept (pool.declared .method owner name descriptor)
  let codeLength ← Attribute.codeLength pool
  return { accessFlags, name, descriptor, codeLength }

/-- A count, and as many items. -/
def readTable {α : Type} (item : Read α) : Read (List α) := do
  let count ← Read.u16
  Read.times count.toNat item

/-- Reads up to the end of the method table; what is behind it is not looked at. The source, the
hash and the owner are those given. -/
def read (source contentHash : String) (own : Bool) : Read (ClassFile × Pool) := do
  let found ← Read.u32
  if found ≠ magic then
    throw (.ofCause (.wrongMagic found))
  let minorVersion ← Read.u16
  let majorVersion ← Read.u16
  let pool ← Pool.read
  let accessFlags ← Read.u16
  let thisIndex ← Read.u16
  let superIndex ← Read.u16
  let name ← ofExcept (pool.className thisIndex)
  let superName ←
    if superIndex = 0 then pure none
    else some <$> ofExcept (pool.className superIndex)
  let interfaces ← readTable (do ofExcept (pool.className (← Read.u16)))
  let fields ← readTable (readField pool name)
  let methods ← readTable (readMethod pool name)
  return ({ name, superName, interfaces, accessFlags, minorVersion, majorVersion, fields, methods,
            source, contentHash, own }, pool)

/-- The class that `bytes` hold, with its pool. -/
def parse (bytes : Bytes) (own : Bool) (source : String) : Except Error (ClassFile × Pool) :=
  ((read source (Digest.Sha256.hexDigest bytes) own).run bytes).mapError
    (·.within (.parsingClass source))

/-- The first method of the name and descriptor. -/
def method? (cls : ClassFile) (name descriptor : String) : Option Method :=
  cls.methods.find? fun method => method.name = name ∧ method.descriptor = descriptor

/-- The first field of the name and descriptor. -/
def field? (cls : ClassFile) (name descriptor : String) : Option Field :=
  cls.fields.find? fun field => field.name = name ∧ field.descriptor = descriptor

end ClassFile

end Classpath
