import Classpath.Digest.Crc32
import Classpath.Zip.Inflate
import Classpath.Zip.Record

/-!
Archives: the members in the order of the central directory, and their contents. The local header
of a member tells no more than where its data are.
-/

set_option autoImplicit false

namespace Classpath

structure ZipFile where
  bytes : Bytes
  members : List Zip.Member
  deriving DecidableEq, Repr

namespace ZipFile

/-- The archive in `bytes`, unless its records are damaged. -/
def ofBytes? (bytes : Bytes) : Option ZipFile := do
  let place ← Zip.findDirectory bytes
  let (members, _) ← Zip.Member.readMany place.shift place.members [] (bytes.drop place.start)
  return ⟨bytes, members⟩

/-- Behind a local header of thirty bytes stand a name and extra fields, then the data. -/
def data? (file : ZipFile) (member : Zip.Member) : Option Bytes := do
  let header := file.bytes.drop member.headerStart
  if ¬ Zip.localSignature.isPrefixOf header then
    none
  else
    let (nameLength, rest) ← Zip.RecordRead.number 2 (header.drop 26)
    let (extraLength, rest) ← Zip.RecordRead.number 2 rest
    return (rest.drop (nameLength + extraLength)).take member.compressedSize

/-- The method that keeps data as they are. -/
def storedMethod : Nat := 0

def deflatedMethod : Nat := 8

/-- The member at `index` with its data, if it can be opened without a password. -/
def open? (file : ZipFile) (index : Nat) : Option (Zip.Member × Bytes) := do
  let member ← file.members[index]?
  if member.encrypted ∨ member.locked then
    none
  else
    let data ← file.data? member
    if member.method = storedMethod ∨ member.method = deflatedMethod then
      return (member, data)
    else
      none

/-- What a member's data expand to. -/
def expand (member : Zip.Member) (data : Bytes) : Option Bytes :=
  if member.method = deflatedMethod then (Zip.Inflate.inflate data).toOption else some data

/-- The contents that data stand for, unless they are damaged or miss the recorded checksum. -/
def contents? (member : Zip.Member) (data : Bytes) : Option Bytes :=
  (expand member data).filter fun contents => Digest.Crc32.checksum contents = member.checksum

end ZipFile

end Classpath
