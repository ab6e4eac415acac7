/-!
Runs of bytes, the numbers they spell in either byte order, and their lower-case hexadecimal text.
-/

set_option autoImplicit false

namespace Classpath

abbrev Bytes := List UInt8

/-- The number that bytes spell, most significant byte first. -/
def bigEndian (bytes : Bytes) : Nat :=
  bytes.foldl (fun n byte => 256 * n + byte.toNat) 0

/-- The number that bytes spell, least significant byte first. -/
def littleEndian (bytes : Bytes) : Nat :=
  bytes.foldr (fun byte n => byte.toNat + 256 * n) 0

@[simp] theorem littleEndian_nil : littleEndian [] = 0 := rfl

@[simp] theorem littleEndian_cons (byte : UInt8) (bytes : Bytes) :
    littleEndian (byte :: bytes) = byte.toNat + 256 * littleEndian bytes := rfl

theorem bigEndian_append_singleton (bytes : Bytes) (byte : UInt8) :
    bigEndian (bytes ++ [byte]) = 256 * bigEndian bytes + byte.toNat := by
  simp only [bigEndian, List.foldl_append, List.foldl_cons, List.foldl_nil]

/-- The two byte orders read the same number from opposite ends. -/
theorem bigEndian_eq_littleEndian_reverse (bytes : Bytes) :
    bigEndian bytes = littleEndian bytes.reverse := by
  simp only [bigEndian, littleEndian, List.foldr_reverse, Nat.add_comm]

/-- Two lower-case hexadecimal digits a byte. -/
def hexText (bytes : Bytes) : String :=
  String.ofList (bytes.flatMap fun byte =>
    [Nat.digitChar (byte.toNat / 16), Nat.digitChar (byte.toNat % 16)])

end Classpath
