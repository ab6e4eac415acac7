import Classpath.ClassFile.Constant

/-!
The constant pool: a table of constants numbered from one. A constant of two places leaves the
second of them empty, as place zero is. The pool can be read, or stepped over without reading it;
look-ups follow the references of a constant and name the first index at which that fails.
-/

set_option autoImplicit false

namespace Classpath

structure Pool where
  entries : Array (Option Constant)
  deriving DecidableEq, Repr

namespace Pool

/-- The place `slots` behind place `index`; behind the greatest one there is only that one. -/
def advance (index : UInt16) (slots : Nat) : UInt16 :=
  UInt16.ofNat (min (index.toNat + slots) 65535)

theorem toNat_advance (index : UInt16) (slots : Nat) :
    (advance index slots).toNat = min (index.toNat + slots) 65535 := by
  have small : min (index.toNat + slots) 65535 < 65536 := by omega
  exact UInt16.toNat_ofNat_of_lt' small

/-- No place below a count is the greatest one. -/
theorem lt_advance {count index : UInt16} {slots : Nat} (room : index < count)
    (some : 0 < slots) : index.toNat < (advance index slots).toNat := by
  have below := UInt16.lt_iff_toNat_lt.mp room
  have bounded := count.toNat_lt
  rw [toNat_advance]
  omega

/-- Reads constants from place `index` up to `count`, behind the entries before it. A constant of
two places in the last one leaves no second entry. -/
def readFrom (count index : UInt16) (entries : Array (Option Constant)) :
    Read (Array (Option Constant)) :=
  if index < count then do
    let constant ← during (.readingPoolEntry index.toNat) (Constant.read index)
    let entries := entries.push (some constant)
    if constant.slots = 2 ∧ index + 1 < count then
      readFrom count (advance index constant.slots) (entries.push none)
    else
      readFrom count (advance index constant.slots) entries
  else
    return entries
termination_by count.toNat - index.toNat
decreasing_by
  all_goals
    have below := UInt16.lt_iff_toNat_lt.mp ‹index < count›
    have farther := lt_advance ‹index < count› constant.slots_pos
    omega

/-- Reads a pool: its count, which is the number of places and one more, then the constants. -/
def read : Read Pool := do
  let count ← during .readingPoolCount Read.u16
  return ⟨← readFrom count 1 #[none]⟩

/-- Where a constant's successor is, by whether the constant takes two places. -/
def next (wide : Bool) (index : UInt16) : UInt16 :=
  advance (if wide then advance index 1 else index) 1

theorem toNat_next (wide : Bool) (index : UInt16) :
    (next wide index).toNat = min (index.toNat + if wide then 2 else 1) 65535 := by
  unfold next
  cases wide with
  | false => exact toNat_advance index 1
  | true =>
      rw [if_pos rfl, if_pos rfl, toNat_advance, toNat_advance]
      omega

/-- Steps over constants from place `index` up to `count`. -/
def skipFrom (count index : UInt16) : Read Unit :=
  if index < count then do
    let tag ← Read.u8
    let wide ← Constant.skipBody tag index
    skipFrom count (next wide index)
  else
    return ()
termination_by count.toNat - index.toNat
decreasing_by
  have below := UInt16.lt_iff_toNat_lt.mp ‹index < count›
  have bounded := count.toNat_lt
  rw [toNat_next]
  split <;> omega

/-- Steps over a pool. -/
def skip : Read Unit := do
  let count ← during .readingPoolCount Read.u16
  skipFrom count 1

/-- The number of places with place zero. -/
def size (pool : Pool) : UInt16 := UInt16.ofNat pool.entries.size

def get? (pool : Pool) (index : UInt16) : Option Constant :=
  pool.entries[index.toNat]?.join

/-- Two places hold equal constants, or nothing both. -/
def sameAt (pool : Pool) (i j : UInt16) : Bool :=
  match pool.get? i, pool.get? j with
  | some a, some b => a.same b
  | none, none => true
  | _, _ => false

def entry (pool : Pool) (index : UInt16) : Except Error Constant :=
  match pool.get? index with
  | some constant => .ok constant
  | none => .error (.ofCause (.poolIndexOutOfRange index pool.size))

/-- The constant at `index` is of another kind than wanted. -/
def mismatch {α : Type} (index : UInt16) (expected : String) : Except Error α :=
  .error (.ofCause (.poolTypeMismatch index expected))

def utf8 (pool : Pool) (index : UInt16) : Except Error String := do
  match ← pool.entry index with
  | .utf8 text => return text
  | _ => mismatch index "Utf8"

/-- The text of a constant that is one, or that points at one. -/
def stringAt (pool : Pool) (index : UInt16) : Except Error String := do
  match ← pool.entry index with
  | .utf8 text => return text
  | .classRef target | .stringRef target | .methodType target | .moduleRef target
  | .packageRef target => pool.utf8 target
  | _ => mismatch index "string-like constant"

def className (pool : Pool) (index : UInt16) : Except Error String := do
  match ← pool.entry index with
  | .classRef name => pool.utf8 name
  | _ => mismatch index "Class"

/-- A name and a descriptor. -/
def nameAndType (pool : Pool) (index : UInt16) : Except Error (String × String) := do
  match ← pool.entry index with
  | .nameAndType name descriptor => return (← pool.utf8 name, ← pool.utf8 descriptor)
  | _ => mismatch index "NameAndType"

/-- The member of another class that a constant refers to. -/
structure MemberRef where
  className : String
  name : String
  descriptor : String
  deriving DecidableEq, Repr

/-- The name and descriptor are resolved before the class is. -/
def memberRef (pool : Pool) (index : UInt16) : Except Error MemberRef := do
  match ← pool.entry index with
  | .fieldRef owner member | .methodRef owner member | .interfaceMethodRef owner member => do
      let (name, descriptor) ← pool.nameAndType member
      return ⟨← pool.className owner, name, descriptor⟩
  | _ => mismatch index "member reference"

/-- The name and descriptor of a member that `owner` declares. -/
def declared (pool : Pool) (kind : MemberKind) (owner : String) (name descriptor : UInt16) :
    Except Error (String × String) := do
  let name ← (pool.utf8 name).mapError (·.within (.resolvingMemberName kind owner))
  let descriptor ← (pool.utf8 descriptor).mapError
    (·.within (.resolvingMemberDescriptor kind owner name))
  return (name, descriptor)

end Pool

end Classpath
