import Classpath.Text.Utf8

/-!
UTF-16 units. Characters beyond the first 65536 are a high surrogate followed by a low one; lossy
decoding writes one replacement for each surrogate that stands alone.
-/

set_option autoImplicit false

namespace Classpath.Text.Utf16

def isHigh (unit : UInt16) : Bool := 0xD800 ≤ unit && unit ≤ 0xDBFF

def isLow (unit : UInt16) : Bool := 0xDC00 ≤ unit && unit ≤ 0xDFFF

/-- The character that a surrogate pair stands for. -/
def pair (high low : UInt16) : Char :=
  Char.ofNat (0x10000 + 0x400 * (high.toNat - 0xD800) + (low.toNat - 0xDC00))

def decodeLossy : List UInt16 → List Char
  | [] => []
  | [unit] =>
      if isHigh unit || isLow unit then [replacement] else [Char.ofNat unit.toNat]
  | unit :: next :: rest =>
      if isHigh unit && isLow next then pair unit next :: decodeLossy rest
      else if isHigh unit || isLow unit then replacement :: decodeLossy (next :: rest)
      else Char.ofNat unit.toNat :: decodeLossy (next :: rest)

/-- The units of one character. -/
def encodeChar (c : Char) : List UInt16 :=
  let n := c.toNat
  if n < 0x10000 then [UInt16.ofNat n]
  else [UInt16.ofNat (0xD800 + (n - 0x10000) / 0x400),
    UInt16.ofNat (0xDC00 + (n - 0x10000) % 0x400)]

def encode (text : List Char) : List UInt16 := text.flatMap encodeChar

end Classpath.Text.Utf16
