import Classpath.Zip.PrefixCode

/-!
Expanding a deflate stream: blocks that are stored as they are, or coded with a fixed or a given
pair of prefix codes, in which a match repeats earlier output. A match that reaches back beyond
the first byte of output repeats zeros.
-/

set_option autoImplicit false

namespace Classpath.Zip.Inflate

/-- The least length or distance of each symbol and the number of extra bits that add to it. -/
structure Range where
  base : Nat
  extra : Nat
  deriving DecidableEq, Repr

/-- Match lengths for the symbols from 257 on. -/
def lengthRanges : Array Range := #[
  ⟨3, 0⟩, ⟨4, 0⟩, ⟨5, 0⟩, ⟨6, 0⟩, ⟨7, 0⟩, ⟨8, 0⟩, ⟨9, 0⟩, ⟨10, 0⟩, ⟨11, 1⟩, ⟨13, 1⟩, ⟨15, 1⟩,
  ⟨17, 1⟩, ⟨19, 2⟩, ⟨23, 2⟩, ⟨27, 2⟩, ⟨31, 2⟩, ⟨35, 3⟩, ⟨43, 3⟩, ⟨51, 3⟩, ⟨59, 3⟩, ⟨67, 4⟩,
  ⟨83, 4⟩, ⟨99, 4⟩, ⟨115, 4⟩, ⟨131, 5⟩, ⟨163, 5⟩, ⟨195, 5⟩, ⟨227, 5⟩, ⟨258, 0⟩]

def distanceRanges : Array Range := #[
  ⟨1, 0⟩, ⟨2, 0⟩, ⟨3, 0⟩, ⟨4, 0⟩, ⟨5, 1⟩, ⟨7, 1⟩, ⟨9, 2⟩, ⟨13, 2⟩, ⟨17, 3⟩, ⟨25, 3⟩, ⟨33, 4⟩,
  ⟨49, 4⟩, ⟨65, 5⟩, ⟨97, 5⟩, ⟨129, 6⟩, ⟨193, 6⟩, ⟨257, 7⟩, ⟨385, 7⟩, ⟨513, 8⟩, ⟨769, 8⟩,
  ⟨1025, 9⟩, ⟨1537, 9⟩, ⟨2049, 10⟩, ⟨3073, 10⟩, ⟨4097, 11⟩, ⟨6145, 11⟩, ⟨8193, 12⟩, ⟨12289, 12⟩,
  ⟨16385, 13⟩, ⟨24577, 13⟩]

/-- The order in which the lengths of the code for lengths are sent. -/
def lengthOrder : List Nat :=
  [16, 17, 18, 0, 8, 7, 9, 6, 10, 5, 11, 4, 12, 3, 13, 2, 14, 1, 15]

def ranged (ranges : Array Range) (symbol : Nat) : BitRead Nat :=
  match ranges[symbol]? with
  | some range => return range.base + (← BitRead.number range.extra)
  | none => throw .corrupt

def code (lengths : List Nat) : BitRead PrefixCode :=
  match PrefixCode.ofLengths? lengths with
  | some code => return code
  | none => throw .corrupt

/-- Repeats `length` bytes of output, each from `distance` bytes back. -/
def copyBack (distance : Nat) : Nat → ByteArray → ByteArray
  | 0, output => output
  | length + 1, output =>
      let byte := if distance ≤ output.size then output[output.size - distance]?.getD 0 else 0
      copyBack distance length (output.push byte)

/-- Literals and matches up to the end of the block. A symbol takes a bit at least, so `fuel` for
every bit left is enough. -/
def symbols (literals distances : PrefixCode) : Nat → ByteArray → BitRead ByteArray
  | 0, _ => throw .truncated
  | fuel + 1, output => do
      let symbol ← literals.decode
      if symbol < 256 then
        symbols literals distances fuel (output.push (UInt8.ofNat symbol))
      else if symbol = 256 then
        return output
      else
        let length ← ranged lengthRanges (symbol - 257)
        let distance ← ranged distanceRanges (← distances.decode)
        symbols literals distances fuel (copyBack distance length output)

/-- The lengths that a code for lengths spells, behind those in `done`, which is reversed. Symbol
16 repeats the last length, 17 and 18 are runs of zeros. -/
def codedLengths (lengthCode : PrefixCode) (count : Nat) : Nat → List Nat → BitRead (List Nat)
  | 0, done => if done.length = count then return done.reverse else throw .corrupt
  | fuel + 1, done => do
      if count ≤ done.length then
        if done.length = count then return done.reverse else throw .corrupt
      else
        let symbol ← lengthCode.decode
        if symbol < 16 then
          codedLengths lengthCode count fuel (symbol :: done)
        else if symbol = 16 then
          match done with
          | [] => throw .corrupt
          | last :: _ => do
              let times := 3 + (← BitRead.number 2)
              codedLengths lengthCode count fuel (List.replicate times last ++ done)
        else if symbol = 17 then
          let times := 3 + (← BitRead.number 3)
          codedLengths lengthCode count fuel (List.replicate times 0 ++ done)
        else
          let times := 11 + (← BitRead.number 7)
          codedLengths lengthCode count fuel (List.replicate times 0 ++ done)

/-- The lengths of the code for lengths: `count` of them are sent and the others are zero. -/
def lengthCodeLengths (count : Nat) : BitRead (List Nat) := do
  let sent ← (lengthOrder.take count).mapM fun symbol => return (symbol, ← BitRead.number 3)
  return (List.range lengthOrder.length).map fun symbol => (sent.lookup symbol).getD 0

def fixedLiteralLengths : List Nat :=
  List.replicate 144 8 ++ List.replicate 112 9 ++ List.replicate 24 7 ++ List.replicate 8 8

def fixedDistanceLengths : List Nat := List.replicate 32 5

/-- The pair of codes that opens a block with codes of its own. -/
def givenCodes : BitRead (PrefixCode × PrefixCode) := do
  let literalCount := 257 + (← BitRead.number 5)
  let distanceCount := 1 + (← BitRead.number 5)
  let lengthCount := 4 + (← BitRead.number 4)
  if 286 < literalCount ∨ 30 < distanceCount then
    throw .corrupt
  let lengthCode ← code (← lengthCodeLengths lengthCount)
  let count := literalCount + distanceCount
  let lengths ← codedLengths lengthCode count count []
  return (← code (lengths.take literalCount), ← code (lengths.drop literalCount))

def storedBlock (output : ByteArray) : BitRead ByteArray := do
  BitRead.align
  let length ← BitRead.bytes 2
  let complement ← BitRead.bytes 2
  if littleEndian length + littleEndian complement ≠ 0xFFFF then
    throw .corrupt
  let content ← BitRead.bytes (littleEndian length)
  return content.foldl ByteArray.push output

def codedBlock (codes : PrefixCode × PrefixCode) (output : ByteArray) : BitRead ByteArray := do
  let source ← get
  symbols codes.1 codes.2 (source.size + 1) output

/-- Blocks up to the last one. A block takes three bits at least, so `fuel` for every bit left is
enough. -/
def blocks : Nat → ByteArray → BitRead ByteArray
  | 0, _ => throw .truncated
  | fuel + 1, output => do
      let last ← BitRead.bit
      let kind ← BitRead.number 2
      let output ←
        match kind with
        | 0 => storedBlock output
        | 1 => do
            let codes := (← code fixedLiteralLengths, ← code fixedDistanceLengths)
            codedBlock codes output
        | 2 => do codedBlock (← givenCodes) output
        | _ => throw .corrupt
      if last then return output else blocks fuel output

/-- What a stream expands to; bytes behind its last block are not looked at. -/
def inflate (bytes : Bytes) : Except InflateFault Bytes :=
  let source := BitSource.ofBytes bytes
  match blocks (source.size + 1) ByteArray.empty source with
  | .ok output _ => .ok output.data.toList
  | .error fault _ => .error fault

end Classpath.Zip.Inflate
