import Classpath.Bytes

/-!
Bits of a compressed stream, from the lowest of each byte up.
-/

set_option autoImplicit false

namespace Classpath.Zip

/-- Why a compressed stream could not be expanded. -/
inductive InflateFault where
  /-- The stream ends before its last block does. -/
  | truncated
  | corrupt
  deriving DecidableEq, Repr

/-- The bits left of a byte that has been begun, and the bytes behind it. -/
structure BitSource where
  pending : List Bool
  bytes : Bytes
  deriving DecidableEq, Repr

namespace BitSource

def ofBytes (bytes : Bytes) : BitSource := ⟨[], bytes⟩

def byteBits (byte : UInt8) : List Bool := (List.range 8).map byte.toNat.testBit

/-- All bits still to come. -/
def toList (source : BitSource) : List Bool := source.pending ++ source.bytes.flatMap byteBits

/-- How many bits are still to come. -/
def size (source : BitSource) : Nat := source.pending.length + 8 * source.bytes.length

end BitSource

abbrev BitRead := EStateM InflateFault BitSource

namespace BitRead

def bit : BitRead Bool := fun source =>
  match source.pending, source.bytes with
  | first :: pending, bytes => .ok first ⟨pending, bytes⟩
  | [], byte :: bytes => .ok (byte.toNat.testBit 0) ⟨(BitSource.byteBits byte).tail, bytes⟩
  | [], [] => .error .truncated source

/-- A number of `width` bits, the lowest first. -/
def number : Nat → BitRead Nat
  | 0 => return 0
  | width + 1 => do
      let low ← bit
      let high ← number width
      return low.toNat + 2 * high

/-- Drops what is left of a byte that has been begun. -/
def align : BitRead Unit := modify fun source => { source with pending := [] }

/-- The next `count` whole bytes, from an aligned source. -/
def bytes (count : Nat) : BitRead Bytes := fun source =>
  let taken := source.bytes.take count
  if taken.length = count then .ok taken { source with bytes := source.bytes.drop count }
  else .error .truncated source

end BitRead

end Classpath.Zip
