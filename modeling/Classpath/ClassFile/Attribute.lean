import Classpath.ClassFile.Pool

/-!
Attribute tables: a count, then for each attribute the index of its name, a length, and as many
bytes. One walk steps over all of them; the other also finds how long a method's code is.
-/

set_option autoImplicit false

namespace Classpath.Attribute

/-- The name of the attribute that holds a method's instructions. -/
def codeName : String := "Code"

/-- Steps over `count` attributes. -/
def skipMany : Nat → Read Unit
  | 0 => return ()
  | count + 1 => do
      Read.discard 2
      let length ← Read.u32
      Read.discard length.toNat
      skipMany count

def skipTable : Read Unit := do
  let count ← Read.u16
  skipMany count.toNat

/-- Steps over `count` attributes. The first code attribute, unless one is `found` already, opens
with two words that are stepped over and the length of the code, which is kept. -/
def codeLengthAmong (pool : Pool) : Nat → Option UInt32 → Read (Option UInt32)
  | 0, found => return found
  | count + 1, found => do
      let name ← ofExcept (pool.utf8 (← Read.u16))
      let length ← Read.u32
      if found.isNone ∧ name = codeName then
        if length < 8 then
          throw (.ofCause (.truncatedAttribute name length))
        Read.discard 4
        let codeLength ← Read.u32
        Read.discard (length.toNat - 8)
        codeLengthAmong pool count (some codeLength)
      else
        Read.discard length.toNat
        codeLengthAmong pool count found

/-- Steps over a method's attribute table for the length of its code, if it has code. -/
def codeLength (pool : Pool) : Read (Option UInt32) := do
  let count ← Read.u16
  codeLengthAmong pool count.toNat none

end Classpath.Attribute
