import Classpath.Bytes

/-!
Numbers as bytes, most significant byte first: the bytes of a given width spell the number back,
and no other bytes of that width do.
-/

set_option autoImplicit false

namespace Classpath

/-- The last `width` bytes of a number, most significant byte first. -/
def bigEndianBytes : Nat → Nat → Bytes
  | 0, _ => []
  | width + 1, n => bigEndianBytes width (n / 256) ++ [UInt8.ofNat n]

/-- How many numbers `width` bytes can spell. -/
def wordCount : Nat → Nat
  | 0 => 1
  | width + 1 => 256 * wordCount width

@[simp] theorem length_bigEndianBytes (width n : Nat) :
    (bigEndianBytes width n).length = width := by
  induction width generalizing n with
  | zero => rfl
  | succ width ih =>
      simp only [bigEndianBytes, List.length_append, ih, List.length_singleton]

theorem bigEndian_bigEndianBytes (width n : Nat) (small : n < wordCount width) :
    bigEndian (bigEndianBytes width n) = n := by
  induction width generalizing n with
  | zero =>
      have zero : n = 0 := by
        simp only [wordCount] at small
        omega
      rw [zero]
      rfl
  | succ width ih =>
      have front : n / 256 < wordCount width := by
        simp only [wordCount] at small
        omega
      rw [bigEndianBytes, bigEndian_append_singleton, ih _ front, UInt8.toNat_ofNat']
      omega

/-- A run of bytes is cut before its last one, which is how the number it spells grows. -/
theorem exists_append_singleton (bytes : Bytes) (width : Nat) (sized : bytes.length = width + 1) :
    ∃ front last, bytes = front ++ [last] ∧ front.length = width := by
  have filled : bytes ≠ [] := by
    intro empty
    rw [empty] at sized
    cases sized
  refine ⟨bytes.dropLast, bytes.getLast filled, (List.dropLast_concat_getLast filled).symm, ?_⟩
  rw [List.length_dropLast, sized, Nat.add_sub_cancel]

theorem bigEndian_lt (width : Nat) (bytes : Bytes) (sized : bytes.length = width) :
    bigEndian bytes < wordCount width := by
  induction width generalizing bytes with
  | zero =>
      rw [List.eq_nil_of_length_eq_zero sized]
      decide
  | succ width ih =>
      obtain ⟨front, last, rfl, frontSized⟩ := exists_append_singleton bytes width sized
      have frontSmall := ih front frontSized
      have lastSmall := last.toNat_lt
      rw [bigEndian_append_singleton, wordCount]
      omega

theorem bigEndianBytes_bigEndian (width : Nat) (bytes : Bytes) (sized : bytes.length = width) :
    bigEndianBytes width (bigEndian bytes) = bytes := by
  induction width generalizing bytes with
  | zero => rw [List.eq_nil_of_length_eq_zero sized, bigEndianBytes]
  | succ width ih =>
      obtain ⟨front, last, rfl, frontSized⟩ := exists_append_singleton bytes width sized
      have lastSmall := last.toNat_lt
      have quotient : (256 * bigEndian front + last.toNat) / 256 = bigEndian front := by omega
      have remainder : UInt8.ofNat (256 * bigEndian front + last.toNat) = last := by
        apply UInt8.toNat_inj.mp
        rw [UInt8.toNat_ofNat']
        omega
      rw [bigEndian_append_singleton, bigEndianBytes, quotient, ih front frontSized, remainder]

/-- Two numbers that bytes of one width can tell apart are told apart by them. -/
theorem bigEndianBytes_injective (width m n : Nat) (smallM : m < wordCount width)
    (smallN : n < wordCount width) (same : bigEndianBytes width m = bigEndianBytes width n) :
    m = n := by
  rw [← bigEndian_bigEndianBytes width m smallM, same, bigEndian_bigEndianBytes width n smallN]

theorem exists_word_of_length_two (bytes : Bytes) (sized : bytes.length = 2) :
    ∃ word : UInt16, bytes = bigEndianBytes 2 word.toNat := by
  refine ⟨UInt16.ofNat (bigEndian bytes), ?_⟩
  rw [UInt16.toNat_ofNat_of_lt' (bigEndian_lt 2 bytes sized), bigEndianBytes_bigEndian 2 bytes sized]

end Classpath
