import Classpath.Bytes
import Classpath.Text.Utf8
import Classpath.Text.CodePage437

/-!
The records of an archive: the end record, found from the back, with its wide companion for large
archives, and the central directory, which describes the members in order.
-/

set_option autoImplicit false

namespace Classpath.Zip

/-- A read of record fields, which gives nothing where the bytes run out or are not as demanded. -/
abbrev RecordRead := StateT Bytes Option

namespace RecordRead

def bytes (count : Nat) : RecordRead Bytes := fun rest =>
  let taken := rest.take count
  if taken.length = count then some (taken, rest.drop count) else none

def number (width : Nat) : RecordRead Nat := do
  return littleEndian (← bytes width)

def expect (condition : Prop) [Decidable condition] : RecordRead Unit :=
  if condition then return () else failure

end RecordRead

def endSignature : Bytes := [0x50, 0x4B, 0x05, 0x06]
def wideEndSignature : Bytes := [0x50, 0x4B, 0x06, 0x06]
def wideLocatorSignature : Bytes := [0x50, 0x4B, 0x06, 0x07]
def memberSignature : Bytes := [0x50, 0x4B, 0x01, 0x02]
def localSignature : Bytes := [0x50, 0x4B, 0x03, 0x04]

/-- The greatest number that a field of four bytes holds; a field with this value may refer to a
wider one. -/
def fourByteLimit : Nat := 0xFFFFFFFF

structure EndRecord where
  disk : Nat
  directoryDisk : Nat
  membersOnDisk : Nat
  members : Nat
  directorySize : Nat
  directoryOffset : Nat
  commentLength : Nat
  deriving DecidableEq, Repr

namespace EndRecord

def size : Nat := 22

def read : RecordRead EndRecord := do
  RecordRead.expect ((← RecordRead.bytes 4) = endSignature)
  let disk ← RecordRead.number 2
  let directoryDisk ← RecordRead.number 2
  let membersOnDisk ← RecordRead.number 2
  let members ← RecordRead.number 2
  let directorySize ← RecordRead.number 4
  let directoryOffset ← RecordRead.number 4
  let commentLength ← RecordRead.number 2
  let _ ← RecordRead.bytes commentLength
  return { disk, directoryDisk, membersOnDisk, members, directorySize, directoryOffset,
           commentLength }

/-- Some field is too narrow for its value. -/
def saturated (record : EndRecord) : Bool :=
  record.disk = 0xFFFF || record.directoryDisk = 0xFFFF || record.membersOnDisk = 0xFFFF ||
    record.members = 0xFFFF || record.directorySize = fourByteLimit ||
    record.directoryOffset = fourByteLimit

end EndRecord

/-- The last place from `low` to `high` at which `signature` stands, and the bytes from there on.
The first byte of the list is at `position`. -/
def lastSignature (signature : Bytes) (low high : Nat) :
    Nat → Bytes → Option (Nat × Bytes) → Option (Nat × Bytes)
  | _, [], found => found
  | position, byte :: rest, found =>
      let here := low ≤ position ∧ position ≤ high ∧ signature.isPrefixOf (byte :: rest)
      lastSignature signature low high (position + 1) rest
        (if here then some (position, byte :: rest) else found)

/-- The first place up to `high` at which `signature` stands, and the bytes from there on. The
first byte of the list is at `position`. -/
def firstSignature (signature : Bytes) (high : Nat) : Nat → Bytes → Option (Nat × Bytes)
  | _, [] => none
  | position, byte :: rest =>
      if high < position then none
      else if signature.isPrefixOf (byte :: rest) then some (position, byte :: rest)
      else firstSignature signature high (position + 1) rest

/-- Where the central directory is. -/
structure DirectoryPlace where
  /-- How many bytes were put in front of the archive after its offsets were written. -/
  shift : Nat
  start : Nat
  members : Nat
  deriving DecidableEq, Repr

/-- What the record that points at the wide end record says: the disk of the directory, and where
the wide record was when the archive was written. -/
def readWideLocator : RecordRead (Nat × Nat) := do
  RecordRead.expect ((← RecordRead.bytes 4) = wideLocatorSignature)
  let directoryDisk ← RecordRead.number 4
  let wideEndOffset ← RecordRead.number 8
  return (directoryDisk, wideEndOffset)

/-- The place that the wide end record tells; it was written at `nominal` and is at `actual`. -/
def readWideEnd (nominal actual : Nat) : RecordRead DirectoryPlace := do
  let _ ← RecordRead.bytes 16
  let disk ← RecordRead.number 4
  let directoryDisk ← RecordRead.number 4
  let _ ← RecordRead.number 8
  let members ← RecordRead.number 8
  let _ ← RecordRead.number 8
  let offset ← RecordRead.number 8
  let shift := actual - nominal
  RecordRead.expect (disk = directoryDisk)
  RecordRead.expect (offset + shift < UInt64.size)
  return ⟨shift, offset + shift, members⟩

/-- The least size of the wide end record and the record that points at it, less the twenty bytes
that are not searched. -/
def wideRecordsSize : Nat := 60

/-- Where the central directory is. A wide end record, if there is one, is pointed at by a record
of twenty bytes in front of the end record. -/
def findDirectory (bytes : Bytes) : Option DirectoryPlace := do
  let length := bytes.length
  if length < EndRecord.size then
    none
  else
    let high := length - EndRecord.size
    let (endStart, tail) ← lastSignature endSignature (high - 0xFFFF) high 0 bytes none
    let (record, _) ← EndRecord.read tail
    if ¬ record.saturated ∧ record.disk ≠ record.directoryDisk then
      none
    else
      let reach := 20 + EndRecord.size + record.commentLength
      let locator := if reach ≤ length then readWideLocator (bytes.drop (length - reach)) else none
      match locator with
      | none =>
          let written := record.directorySize + record.directoryOffset
          if written ≤ endStart then
            some ⟨endStart - written, endStart - record.directorySize, record.membersOnDisk⟩
          else
            none
      | some ((directoryDisk, nominal), _) =>
          if ¬ record.saturated ∧ record.disk ≠ directoryDisk then
            none
          else if endStart < wideRecordsSize then
            none
          else
            let (actual, tail) ← firstSignature wideEndSignature (endStart - wideRecordsSize)
              nominal (bytes.drop nominal)
            (·.1) <$> readWideEnd nominal actual tail

/-- What the central directory says of a member, as far as the contents depend on it. -/
structure Member where
  name : String
  encrypted : Bool
  /-- Encrypted by the scheme that an extra field describes. -/
  locked : Bool
  method : Nat
  checksum : UInt32
  compressedSize : Nat
  /-- The size that the member is said to have, which nothing relies on. -/
  declaredSize : Nat
  /-- Where the member's local header is. -/
  headerStart : Nat
  deriving DecidableEq, Repr

namespace Member

/-- A slash or a backslash at the end of the name marks a directory. -/
def isDirectory (member : Member) : Bool :=
  match member.name.toList.getLast? with
  | some last => last = '/' || last = '\\'
  | none => false

end Member

/-- Why the extra fields of a member are read no further. -/
inductive ExtraStop where
  /-- They end within a field, which is no fault. -/
  | exhausted
  | invalid
  deriving DecidableEq, Repr

/-- A read of extra fields: the bytes left, and the member as the fields so far have it. -/
abbrev ExtraRead := EStateM ExtraStop (Bytes × Member)

namespace ExtraRead

def number (width : Nat) : ExtraRead Nat := fun (rest, member) =>
  let taken := rest.take width
  if taken.length = width then .ok (littleEndian taken) (rest.drop width, member)
  else .error .exhausted (rest, member)

def edit (change : Member → Member) : ExtraRead Unit :=
  modify fun (rest, member) => (rest, change member)

/-- Steps over what is left of a field, which may reach past the end. -/
def skip (count : Nat) : ExtraRead Unit :=
  modify fun (rest, member) => (rest.drop count, member)

/-- Wider values for the fields that are at their limit, in a fixed order; gives how many bytes
they take. -/
def wideSizes : ExtraRead Nat := do
  let mut used := 0
  if (← get).2.declaredSize = fourByteLimit then
    let size ← number 8
    edit fun member => { member with declaredSize := size }
    used := used + 8
  if (← get).2.compressedSize = fourByteLimit then
    let size ← number 8
    edit fun member => { member with compressedSize := size }
    used := used + 8
  if (← get).2.headerStart = fourByteLimit then
    let start ← number 8
    edit fun member => { member with headerStart := start }
    used := used + 8
  return used

/-- The description of an encryption scheme, which also holds the method of compression. -/
def encryption (length : Nat) : ExtraRead Unit := do
  if length ≠ 7 then
    throw .invalid
  let version ← number 2
  let vendor ← number 2
  let strength ← number 1
  let method ← number 2
  if vendor ≠ 0x4541 ∨ (version ≠ 1 ∧ version ≠ 2) ∨ strength < 1 ∨ 3 < strength then
    throw .invalid
  edit fun member => { member with locked := true, method }

/-- One extra field. The bytes of an encryption field are counted twice. -/
def field : ExtraRead Unit := do
  let kind ← number 2
  let length ← number 2
  if kind = 0x0001 then
    skip (length - (← wideSizes))
  else if kind = 0x9901 then
    encryption length
    skip length
  else
    skip length

/-- All extra fields; each takes a byte at least, so `fuel` for every byte is enough. -/
def all : Nat → ExtraRead Unit
  | 0 => return ()
  | fuel + 1 => do
      if (← get).1.isEmpty then
        return ()
      else
        field
        all fuel

end ExtraRead

namespace Member

/-- The member as its extra fields have it. -/
def applyExtra (member : Member) (extra : Bytes) : Option Member :=
  match ExtraRead.all (extra.length + 1) (extra, member) with
  | .ok _ (_, member) => some member
  | .error .exhausted (_, member) => some member
  | .error .invalid _ => none

/-- The method number that stands for encryption and not for a compression. -/
def encryptionMethod : Nat := 99

/-- One record of the central directory. -/
def read (shift : Nat) : RecordRead Member := do
  RecordRead.expect ((← RecordRead.bytes 4) = memberSignature)
  let _ ← RecordRead.bytes 4
  let flags ← RecordRead.number 2
  let method ← RecordRead.number 2
  let _ ← RecordRead.bytes 4
  let checksum ← RecordRead.number 4
  let compressedSize ← RecordRead.number 4
  let declaredSize ← RecordRead.number 4
  let nameLength ← RecordRead.number 2
  let extraLength ← RecordRead.number 2
  let commentLength ← RecordRead.number 2
  let _ ← RecordRead.bytes 8
  let headerStart ← RecordRead.number 4
  let nameBytes ← RecordRead.bytes nameLength
  let extra ← RecordRead.bytes extraLength
  let _ ← RecordRead.bytes commentLength
  let name :=
    if flags.testBit 11 then Text.Utf8.decodeLossy nameBytes
    else Text.CodePage437.decode nameBytes
  let member : Member := {
    name := String.ofList name, encrypted := flags.testBit 0, locked := false, method,
    checksum := UInt32.ofNat checksum, compressedSize, declaredSize, headerStart }
  let member ← StateT.lift (member.applyExtra extra)
  RecordRead.expect (member.method ≠ encryptionMethod ∨ member.locked)
  RecordRead.expect (member.headerStart + shift < UInt64.size)
  return { member with headerStart := member.headerStart + shift }

/-- `count` records in a row, behind those in `done`, which is reversed. -/
def readMany (shift : Nat) : Nat → List Member → RecordRead (List Member)
  | 0, done => return done.reverse
  | count + 1, done => do readMany shift count ((← read shift) :: done)

end Member

end Classpath.Zip
