import Classpath.Cursor
import Classpath.Text.ModifiedUtf8

/-!
The constants of a class file: seventeen kinds, told apart by a tag byte. References to other
constants are kept as indices and are followed only when they are looked up.
-/

set_option autoImplicit false

namespace Classpath

inductive Constant where
  | utf8 (text : String)
  | integer (value : Int32)
  /-- The bits of a binary32 number. -/
  | float (bits : UInt32)
  | long (value : Int64)
  /-- The bits of a binary64 number. -/
  | double (bits : UInt64)
  | classRef (name : UInt16)
  | stringRef (text : UInt16)
  | fieldRef (owner nameAndType : UInt16)
  | methodRef (owner nameAndType : UInt16)
  | interfaceMethodRef (owner nameAndType : UInt16)
  | nameAndType (name descriptor : UInt16)
  | methodHandle (kind : UInt8) (reference : UInt16)
  | methodType (descriptor : UInt16)
  | dynamic (bootstrap nameAndType : UInt16)
  | invokeDynamic (bootstrap nameAndType : UInt16)
  | moduleRef (name : UInt16)
  | packageRef (name : UInt16)
  deriving DecidableEq, Repr

namespace Constant

def tag : Constant → UInt8
  | utf8 _ => 1
  | integer _ => 3
  | float _ => 4
  | long _ => 5
  | double _ => 6
  | classRef _ => 7
  | stringRef _ => 8
  | fieldRef .. => 9
  | methodRef .. => 10
  | interfaceMethodRef .. => 11
  | nameAndType .. => 12
  | methodHandle .. => 15
  | methodType _ => 16
  | dynamic .. => 17
  | invokeDynamic .. => 18
  | moduleRef _ => 19
  | packageRef _ => 20

/-- How many places of the pool a constant takes. -/
def slots : Constant → Nat
  | long _ | double _ => 2
  | _ => 1

theorem slots_pos (constant : Constant) : 0 < constant.slots := by
  cases constant <;> simp only [slots] <;> omega

/-- The body of a constant with the given tag; `index` is its place in the pool. -/
def readBody (tag : UInt8) (index : UInt16) : Read Constant :=
  match tag with
  | 1 => do
      let length ← Read.u16
      return utf8 (Text.ModifiedUtf8.decode (← Read.slice length.toNat))
  | 3 => return integer (← Read.i32)
  | 4 => return float (← Read.u32)
  | 5 => return long (← Read.i64)
  | 6 => return double (← Read.u64)
  | 7 => return classRef (← Read.u16)
  | 8 => return stringRef (← Read.u16)
  | 9 => return fieldRef (← Read.u16) (← Read.u16)
  | 10 => return methodRef (← Read.u16) (← Read.u16)
  | 11 => return interfaceMethodRef (← Read.u16) (← Read.u16)
  | 12 => return nameAndType (← Read.u16) (← Read.u16)
  | 15 => return methodHandle (← Read.u8) (← Read.u16)
  | 16 => return methodType (← Read.u16)
  | 17 => return dynamic (← Read.u16) (← Read.u16)
  | 18 => return invokeDynamic (← Read.u16) (← Read.u16)
  | 19 => return moduleRef (← Read.u16)
  | 20 => return packageRef (← Read.u16)
  | tag => throw (.ofCause (.unknownConstantTag tag index))

/-- The constant whose tag byte comes next; `index` is its place in the pool. -/
def read (index : UInt16) : Read Constant := do
  readBody (← Read.u8) index

/-- Steps over the body of a constant with the given tag, and tells whether it takes two places. -/
def skipBody (tag : UInt8) (index : UInt16) : Read Bool :=
  match tag with
  | 1 => do
      let length ← Read.u16
      Read.discard length.toNat
      return false
  | 7 | 8 | 16 | 19 | 20 => do
      Read.discard 2
      return false
  | 15 => do
      Read.discard 3
      return false
  | 3 | 4 | 9 | 10 | 11 | 12 | 17 | 18 => do
      Read.discard 4
      return false
  | 5 | 6 => do
      Read.discard 8
      return true
  | tag => throw (.ofCause (.unknownConstantTag tag index))

/-- Equality of binary32 numbers: a NaN differs from itself, and the two zeros are equal. -/
def sameFloat (a b : UInt32) : Bool :=
  let magnitude (x : UInt32) := x &&& 0x7FFFFFFF
  magnitude a ≤ 0x7F800000 && magnitude b ≤ 0x7F800000 &&
    (a == b || (magnitude a == 0 && magnitude b == 0))

/-- Equality of binary64 numbers: a NaN differs from itself, and the two zeros are equal. -/
def sameDouble (a b : UInt64) : Bool :=
  let magnitude (x : UInt64) := x &&& 0x7FFFFFFFFFFFFFFF
  magnitude a ≤ 0x7FF0000000000000 && magnitude b ≤ 0x7FF0000000000000 &&
    (a == b || (magnitude a == 0 && magnitude b == 0))

/-- Equality that compares floating-point constants as numbers. -/
def same : Constant → Constant → Bool
  | float a, float b => sameFloat a b
  | double a, double b => sameDouble a b
  | a, b => a == b

end Constant

end Classpath
