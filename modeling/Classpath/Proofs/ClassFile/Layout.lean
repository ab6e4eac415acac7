import Classpath.ClassFile.Header
import Classpath.Proofs.Reads

/-!
Class files as they are laid out in bytes, before anything in them is resolved: what stands in each
table, how it is written, and what it means through the constants that its indices name.
-/

set_option autoImplicit false

namespace Classpath

/-- A count of two bytes and as many rows. -/
structure Table (ρ : Type) where
  rows : List ρ
  fits : rows.length < 65536

def Table.encode {ρ : Type} (encodeRow : ρ → Bytes) (table : Table ρ) : Bytes :=
  bigEndianBytes 2 table.rows.length ++ table.rows.flatMap encodeRow

theorem Table.toNat_length {ρ : Type} (table : Table ρ) :
    (UInt16.ofNat table.rows.length).toNat = table.rows.length :=
  UInt16.toNat_ofNat_of_lt' table.fits

/-- What is written behind the tag of a constant that is no text. -/
def Constant.body : Constant → Bytes
  | utf8 _ => []
  | integer value => bigEndianBytes 4 value.toUInt32.toNat
  | float bits => bigEndianBytes 4 bits.toNat
  | long value => bigEndianBytes 8 value.toUInt64.toNat
  | double bits => bigEndianBytes 8 bits.toNat
  | classRef index | stringRef index | methodType index | moduleRef index | packageRef index =>
      bigEndianBytes 2 index.toNat
  | fieldRef first second | methodRef first second | interfaceMethodRef first second
  | nameAndType first second | dynamic first second | invokeDynamic first second =>
      bigEndianBytes 2 first.toNat ++ bigEndianBytes 2 second.toNat
  | methodHandle kind reference => kind :: bigEndianBytes 2 reference.toNat

/-- A constant as it is written. A text is kept undecoded, since several runs of bytes may decode
to one text. -/
inductive RawConstant where
  | text (payload : Bytes) (fits : payload.length < 65536)
  | other (constant : Constant) (plain : ∀ text, constant ≠ .utf8 text)

namespace RawConstant

def decoded : RawConstant → Constant
  | text payload _ => .utf8 (Text.ModifiedUtf8.decode payload)
  | other constant _ => constant

def encode : RawConstant → Bytes
  | text payload _ => 1 :: (bigEndianBytes 2 payload.length ++ payload)
  | other constant _ => constant.tag :: constant.body

def slots (raw : RawConstant) : Nat := raw.decoded.slots

theorem slots_pos (raw : RawConstant) : 0 < raw.slots := raw.decoded.slots_pos

end RawConstant

/-- Constants placed from `index` on start at places below `count`, and leave none free. The last
of them may take one place more than there is. -/
def Fills (count : Nat) : Nat → List RawConstant → Prop
  | index, [] => count ≤ index
  | index, raw :: rest => index < count ∧ Fills count (index + raw.slots) rest

instance decidableFills (count : Nat) :
    (index : Nat) → (constants : List RawConstant) → Decidable (Fills count index constants)
  | index, [] => inferInstanceAs (Decidable (count ≤ index))
  | index, raw :: rest =>
      have := decidableFills count (index + raw.slots) rest
      inferInstanceAs (Decidable (index < count ∧ Fills count (index + raw.slots) rest))

/-- A declared count of places, and constants that fill them from place one on. -/
structure RawPool where
  count : UInt16
  constants : List RawConstant
  filled : Fills count.toNat 1 constants

namespace RawPool

def encode (pool : RawPool) : Bytes :=
  bigEndianBytes 2 pool.count.toNat ++ pool.constants.flatMap RawConstant.encode

/-- The constant that starts at place `wanted`, the first of `constants` being at `index`. -/
def startingAt? (wanted : Nat) : Nat → List RawConstant → Option RawConstant
  | _, [] => none
  | index, raw :: rest =>
      if index = wanted then some raw else startingAt? wanted (index + raw.slots) rest

def constant? (pool : RawPool) (index : UInt16) : Option RawConstant :=
  startingAt? index.toNat 1 pool.constants

/-- The text that an index names. -/
def text? (pool : RawPool) (index : UInt16) : Option String :=
  match pool.constant? index with
  | some (.text payload _) => some (Text.ModifiedUtf8.decode payload)
  | _ => none

/-- The name of the class that an index names. -/
def className? (pool : RawPool) (index : UInt16) : Option String :=
  match pool.constant? index with
  | some (.other (.classRef name) _) => pool.text? name
  | _ => none

end RawPool

structure RawAttribute where
  name : UInt16
  payload : Bytes
  fits : payload.length < 4294967296

namespace RawAttribute

def encode (raw : RawAttribute) : Bytes :=
  bigEndianBytes 2 raw.name.toNat ++ bigEndianBytes 4 raw.payload.length ++ raw.payload

end RawAttribute

/-- What the payload of a code attribute says of the length of the code, behind two words of two
bytes. -/
def Attribute.codeLengthIn (payload : Bytes) : UInt32 :=
  UInt32.ofNat (bigEndian ((payload.drop 4).take 4))

/-- The length of the code stands in the payload as it is read from there. -/
theorem Attribute.payload_eq (payload : Bytes) (room : 8 ≤ payload.length) :
    payload = payload.take 4 ++
      (bigEndianBytes 4 (codeLengthIn payload).toNat ++ payload.drop 8) := by
  have measured : ((payload.drop 4).take 4).length = 4 := by
    rw [List.length_take, List.length_drop]
    omega
  have spelled : bigEndianBytes 4 (codeLengthIn payload).toNat = (payload.drop 4).take 4 := by
    have small := bigEndian_lt 4 _ measured
    rw [codeLengthIn, UInt32.toNat_ofNat_of_lt' small, bigEndianBytes_bigEndian 4 _ measured]
  have behind : payload.drop 8 = (payload.drop 4).drop 4 := by rw [List.drop_drop]
  rw [spelled, behind, List.take_append_drop, List.take_append_drop]

/-- The first of the attributes that is named as code is. -/
def RawPool.codeAttribute? (pool : RawPool) (rows : List RawAttribute) : Option RawAttribute :=
  rows.find? fun raw => pool.text? raw.name = some Attribute.codeName

/-- A row of the field or the method table. -/
structure RawMember where
  accessFlags : UInt16
  name : UInt16
  descriptor : UInt16
  attributes : Table RawAttribute

theorem RawPool.codeAttribute?_cons (pool : RawPool) (raw : RawAttribute)
    (rows : List RawAttribute) :
    pool.codeAttribute? (raw :: rows) =
      if pool.text? raw.name = some Attribute.codeName then some raw
      else pool.codeAttribute? rows := by
  rw [codeAttribute?, List.find?_cons]
  by_cases code : pool.text? raw.name = some Attribute.codeName
  · rw [decide_eq_true code, if_pos code]
  · rw [decide_eq_false code, if_neg code]
    rfl

namespace RawMember

def encode (row : RawMember) : Bytes :=
  bigEndianBytes 2 row.accessFlags.toNat ++ bigEndianBytes 2 row.name.toNat ++
    bigEndianBytes 2 row.descriptor.toNat ++ row.attributes.encode RawAttribute.encode

/-- A field's name and descriptor are texts; its attributes may be named by anything. -/
structure ResolvesAsField (pool : RawPool) (row : RawMember) : Prop where
  name : (pool.text? row.name).isSome
  descriptor : (pool.text? row.descriptor).isSome

/-- So are a method's, and the names of its attributes; its code has room for what precedes the
instructions. -/
structure ResolvesAsMethod (pool : RawPool) (row : RawMember) : Prop where
  name : (pool.text? row.name).isSome
  descriptor : (pool.text? row.descriptor).isSome
  attributes : ∀ raw ∈ row.attributes.rows, (pool.text? raw.name).isSome
  code : ∀ raw, pool.codeAttribute? row.attributes.rows = some raw → 8 ≤ raw.payload.length

structure DescribesField (pool : RawPool) (row : RawMember) (field : Field) : Prop where
  accessFlags : field.accessFlags = row.accessFlags
  name : pool.text? row.name = some field.name
  descriptor : pool.text? row.descriptor = some field.descriptor

structure DescribesMethod (pool : RawPool) (row : RawMember) (method : Method) : Prop where
  accessFlags : method.accessFlags = row.accessFlags
  name : pool.text? row.name = some method.name
  descriptor : pool.text? row.descriptor = some method.descriptor
  codeLength : method.codeLength =
    (pool.codeAttribute? row.attributes.rows).map fun raw => Attribute.codeLengthIn raw.payload

end RawMember

structure RawClass where
  minorVersion : UInt16
  majorVersion : UInt16
  pool : RawPool
  accessFlags : UInt16
  thisClass : UInt16
  superClass : UInt16
  interfaces : Table UInt16
  fields : Table RawMember
  methods : Table RawMember

namespace RawClass

/-- The eight bytes in front of the pool. -/
def encodeHead (raw : RawClass) : Bytes :=
  bigEndianBytes 4 ClassFile.magic.toNat ++ bigEndianBytes 2 raw.minorVersion.toNat ++
    bigEndianBytes 2 raw.majorVersion.toNat

/-- The six bytes behind the pool. -/
def encodeIdentity (raw : RawClass) : Bytes :=
  bigEndianBytes 2 raw.accessFlags.toNat ++ bigEndianBytes 2 raw.thisClass.toNat ++
    bigEndianBytes 2 raw.superClass.toNat

def encodeTables (raw : RawClass) : Bytes :=
  raw.interfaces.encode (fun index => bigEndianBytes 2 index.toNat) ++
    (raw.fields.encode RawMember.encode ++ raw.methods.encode RawMember.encode)

def encode (raw : RawClass) : Bytes :=
  raw.encodeHead ++ (raw.pool.encode ++ (raw.encodeIdentity ++ raw.encodeTables))

/-- Every index that is followed leads to what it should name. -/
structure Resolvable (raw : RawClass) : Prop where
  thisClass : (raw.pool.className? raw.thisClass).isSome
  superClass : raw.superClass ≠ 0 → (raw.pool.className? raw.superClass).isSome
  interfaces : ∀ index ∈ raw.interfaces.rows, (raw.pool.className? index).isSome
  fields : ∀ row ∈ raw.fields.rows, row.ResolvesAsField raw.pool
  methods : ∀ row ∈ raw.methods.rows, row.ResolvesAsMethod raw.pool

/-- What a class keeps of its layout, in the order of the tables. -/
structure Describes (raw : RawClass) (cls : ClassFile) : Prop where
  minorVersion : cls.minorVersion = raw.minorVersion
  majorVersion : cls.majorVersion = raw.majorVersion
  accessFlags : cls.accessFlags = raw.accessFlags
  name : raw.pool.className? raw.thisClass = some cls.name
  superName : cls.superName =
    if raw.superClass = 0 then none else raw.pool.className? raw.superClass
  interfaces : List.Forall₂ (fun index name => raw.pool.className? index = some name)
    raw.interfaces.rows cls.interfaces
  fields : List.Forall₂ (RawMember.DescribesField raw.pool) raw.fields.rows cls.fields
  methods : List.Forall₂ (RawMember.DescribesMethod raw.pool) raw.methods.rows cls.methods

/-! Where the instructions of a method are. -/

/-- The place behind the name, the length, two words and the length of the code of the first
attribute named as code is; the first of the attributes is at `position`. -/
def codeStartAmong? (pool : RawPool) : Nat → List RawAttribute → Option Nat
  | _, [] => none
  | position, raw :: rest =>
      if pool.text? raw.name = some Attribute.codeName then some (position + 14)
      else codeStartAmong? pool (position + raw.encode.length) rest

/-- The same in the first row of the name and descriptor, whose attributes are behind three words
and a count; the first of the rows is at `position`. -/
def codeStartOf? (pool : RawPool) (name descriptor : String) : Nat → List RawMember → Option Nat
  | _, [] => none
  | position, row :: rest =>
      if pool.text? row.name = some name ∧ pool.text? row.descriptor = some descriptor then
        codeStartAmong? pool (position + 8) row.attributes.rows
      else codeStartOf? pool name descriptor (position + row.encode.length) rest

/-- Everything in front of the rows of the method table. -/
def encodeFront (raw : RawClass) : Bytes :=
  raw.encodeHead ++ (raw.pool.encode ++ (raw.encodeIdentity ++
    (raw.interfaces.encode (fun index => bigEndianBytes 2 index.toNat) ++
      (raw.fields.encode RawMember.encode ++ bigEndianBytes 2 raw.methods.rows.length))))

/-- Where the instructions of the first method of the name and descriptor begin. -/
def codeStart? (raw : RawClass) (name descriptor : String) : Option Nat :=
  codeStartOf? raw.pool name descriptor raw.encodeFront.length raw.methods.rows

theorem length_encodeHead (raw : RawClass) : raw.encodeHead.length = 8 := by
  simp only [encodeHead, List.length_append, length_bigEndianBytes]

theorem length_encodeIdentity (raw : RawClass) : raw.encodeIdentity.length = 6 := by
  simp only [encodeIdentity, List.length_append, length_bigEndianBytes]

theorem encode_eq_front (raw : RawClass) :
    raw.encode = raw.encodeFront ++ raw.methods.rows.flatMap RawMember.encode := by
  simp only [encode, encodeFront, encodeTables, Table.encode, List.append_assoc]

end RawClass

end Classpath
