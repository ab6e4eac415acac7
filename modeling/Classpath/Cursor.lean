import Classpath.Bytes
import Classpath.Error

/-!
A cursor over the bytes of a class, and the reads it serves. A read of a fixed-width number that
runs out of bytes uses up what is left; a read of a run of bytes that is too long takes nothing.
-/

set_option autoImplicit false

namespace Classpath

/-- A place in a run of bytes: how many are behind it, and which are ahead. -/
structure Cursor where
  position : Nat
  rest : Bytes
  deriving DecidableEq, Repr

namespace Cursor

def start (bytes : Bytes) : Cursor := ⟨0, bytes⟩

def remaining (cursor : Cursor) : Nat := cursor.rest.length

end Cursor

/-- A read ends in an answer or an error, and leaves a cursor in either case. -/
abbrev Read := EStateM Error Cursor

namespace Read

/-- The next `width` bytes of a fixed-width number. -/
def word (width : Nat) : Read Bytes := fun cursor =>
  let taken := cursor.rest.take width
  let left : Cursor := ⟨cursor.position + taken.length, cursor.rest.drop width⟩
  if taken.length = width then .ok taken left
  else .error (.ofCause .bytesExhausted) left

/-- The next `length` bytes. -/
def slice (length : Nat) : Read Bytes := fun cursor =>
  let taken := cursor.rest.take length
  if taken.length = length then .ok taken ⟨cursor.position + length, cursor.rest.drop length⟩
  else .error (.ofCause (.bytesTruncated length cursor.remaining)) cursor

/-- Steps over the next `length` bytes. -/
def discard (length : Nat) : Read Unit := do
  let _ ← slice length
  return ()

def u8 : Read UInt8 := do
  return UInt8.ofNat (bigEndian (← word 1))

def u16 : Read UInt16 := do
  return UInt16.ofNat (bigEndian (← word 2))

def u32 : Read UInt32 := do
  return UInt32.ofNat (bigEndian (← word 4))

def u64 : Read UInt64 := do
  return UInt64.ofNat (bigEndian (← word 8))

/-- Two's complement. -/
def i32 : Read Int32 := do
  return (← u32).toInt32

/-- Two's complement. -/
def i64 : Read Int64 := do
  return (← u64).toInt64

/-- The answers of `count` reads in a row, put behind those in `done`, which is reversed. -/
def timesFrom {α : Type} (item : Read α) : Nat → List α → Read (List α)
  | 0, done => return done.reverse
  | count + 1, done => do timesFrom item count ((← item) :: done)

/-- One read, `count` times in a row. -/
def times {α : Type} (count : Nat) (item : Read α) : Read (List α) := timesFrom item count []

/-- Runs a read from the start of `bytes` for its answer alone. -/
def run {α : Type} (read : Read α) (bytes : Bytes) : Except Error α :=
  match read (Cursor.start bytes) with
  | .ok value _ => .ok value
  | .error error _ => .error error

end Read

end Classpath
