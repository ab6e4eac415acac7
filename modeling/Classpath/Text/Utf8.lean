import Classpath.Bytes

/-!
UTF-8. A decoding step takes one character, or as much of an ill-formed sequence as could have
begun one; strict decoding refuses the latter, lossy decoding writes one replacement for it.
-/

set_option autoImplicit false

namespace Classpath.Text

/-- The mark for what could not be decoded. -/
def replacement : Char := '\uFFFD'

namespace Utf8

/-- Continuation bytes carry six bits each. -/
def isContinuation (byte : UInt8) : Bool := 0x80 ≤ byte && byte ≤ 0xBF

def payload (byte : UInt8) : Nat := byte.toNat % 64

/-- The second bytes that may follow a lead of three: no overlong form and no surrogate. -/
def secondOfThree (lead byte : UInt8) : Bool :=
  if lead = 0xE0 then 0xA0 ≤ byte && byte ≤ 0xBF
  else if lead = 0xED then 0x80 ≤ byte && byte ≤ 0x9F
  else isContinuation byte

/-- The second bytes that may follow a lead of four: no overlong form and no more than 10FFFF. -/
def secondOfFour (lead byte : UInt8) : Bool :=
  if lead = 0xF0 then 0x90 ≤ byte && byte ≤ 0xBF
  else if lead = 0xF4 then 0x80 ≤ byte && byte ≤ 0x8F
  else isContinuation byte

/-- One step behind the first byte: the character, or nothing for an ill-formed sequence, and how
many of the bytes behind the first belong to it. -/
def step (lead : UInt8) (rest : Bytes) : Option Char × Nat :=
  if lead < 0x80 then (some (Char.ofNat lead.toNat), 0)
  else if 0xC2 ≤ lead && lead ≤ 0xDF then
    match rest with
    | second :: _ =>
        if isContinuation second then
          (some (Char.ofNat (64 * (lead.toNat % 32) + payload second)), 1)
        else (none, 0)
    | [] => (none, 0)
  else if 0xE0 ≤ lead && lead ≤ 0xEF then
    match rest with
    | second :: rest =>
        if secondOfThree lead second then
          match rest with
          | third :: _ =>
              if isContinuation third then
                (some (Char.ofNat
                  (4096 * (lead.toNat % 16) + 64 * payload second + payload third)), 2)
              else (none, 1)
          | [] => (none, 1)
        else (none, 0)
    | [] => (none, 0)
  else if 0xF0 ≤ lead && lead ≤ 0xF4 then
    match rest with
    | second :: rest =>
        if secondOfFour lead second then
          match rest with
          | third :: rest =>
              if isContinuation third then
                match rest with
                | fourth :: _ =>
                    if isContinuation fourth then
                      (some (Char.ofNat (262144 * (lead.toNat % 8) + 4096 * payload second
                        + 64 * payload third + payload fourth)), 3)
                    else (none, 2)
                | [] => (none, 2)
              else (none, 1)
          | [] => (none, 1)
        else (none, 0)
    | [] => (none, 0)
  else (none, 0)

/-- The characters of the text, with nothing in the place of each ill-formed sequence. -/
def steps (bytes : Bytes) : List (Option Char) :=
  match bytes with
  | [] => []
  | lead :: rest =>
      let taken := step lead rest
      taken.1 :: steps (rest.drop taken.2)
termination_by bytes.length
decreasing_by
  simp only [List.length_drop, List.length_cons]
  omega

/-- All characters, unless some sequence is ill-formed. -/
def decode? (bytes : Bytes) : Option (List Char) := (steps bytes).mapM id

/-- One replacement for each ill-formed sequence. -/
def decodeLossy (bytes : Bytes) : List Char := (steps bytes).map (·.getD replacement)

/-- The bytes of one character. -/
def encodeChar (c : Char) : Bytes :=
  let n := c.toNat
  if n < 0x80 then [UInt8.ofNat n]
  else if n < 0x800 then [UInt8.ofNat (0xC0 + n / 64), UInt8.ofNat (0x80 + n % 64)]
  else if n < 0x10000 then
    [UInt8.ofNat (0xE0 + n / 4096), UInt8.ofNat (0x80 + n / 64 % 64), UInt8.ofNat (0x80 + n % 64)]
  else
    [UInt8.ofNat (0xF0 + n / 262144), UInt8.ofNat (0x80 + n / 4096 % 64),
      UInt8.ofNat (0x80 + n / 64 % 64), UInt8.ofNat (0x80 + n % 64)]

def encode (text : List Char) : Bytes := text.flatMap encodeChar

end Utf8

end Classpath.Text
