import Classpath.Text.Utf16

/-!
The text encoding of class files: UTF-16 units in groups of one to three bytes, with the zero unit
in two. A text that is UTF-8 as it stands is read as UTF-8; any other is read group by group. A
byte that leads no group, or whose group runs past the end, is read as one replacement.
-/

set_option autoImplicit false

namespace Classpath.Text.ModifiedUtf8

/-- The unit of a group of two bytes. -/
def unitOfTwo (lead second : UInt8) : UInt16 :=
  UInt16.ofNat (64 * (lead.toNat % 32) + second.toNat % 64)

/-- The unit of a group of three bytes. -/
def unitOfThree (lead second third : UInt8) : UInt16 :=
  UInt16.ofNat (4096 * (lead.toNat % 16) + 64 * (second.toNat % 64) + third.toNat % 64)

/-- Leads of one byte are below 80, of two from C0 to DF, of three from E0 to EF. The lead alone
says how long a group is; the bytes behind it give their low six bits, whatever the others are. -/
def units : Bytes → List UInt16
  | [] => []
  | lead :: rest =>
      if lead < 0x80 then lead.toUInt16 :: units rest
      else if 0xC0 ≤ lead ∧ lead ≤ 0xDF then
        match rest with
        | second :: rest => unitOfTwo lead second :: units rest
        | [] => [0xFFFD]
      else if 0xE0 ≤ lead ∧ lead ≤ 0xEF then
        match rest with
        | second :: third :: rest => unitOfThree lead second third :: units rest
        | rest => 0xFFFD :: units rest
      else 0xFFFD :: units rest

/-- Reads group by group. -/
def decodeGroups (bytes : Bytes) : List Char := Utf16.decodeLossy (units bytes)

def decodeChars (bytes : Bytes) : List Char :=
  match Utf8.decode? bytes with
  | some text => text
  | none => decodeGroups bytes

def decode (bytes : Bytes) : String := String.ofList (decodeChars bytes)

/-- The group of one unit. -/
def encodeUnit (unit : UInt16) : Bytes :=
  let n := unit.toNat
  if 0 < n ∧ n < 0x80 then [UInt8.ofNat n]
  else if n < 0x800 then [UInt8.ofNat (0xC0 + n / 64), UInt8.ofNat (0x80 + n % 64)]
  else [UInt8.ofNat (0xE0 + n / 4096), UInt8.ofNat (0x80 + n / 64 % 64),
    UInt8.ofNat (0x80 + n % 64)]

def encode (units : List UInt16) : Bytes := units.flatMap encodeUnit

end Classpath.Text.ModifiedUtf8
