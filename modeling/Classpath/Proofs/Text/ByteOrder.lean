import Classpath.Bytes
import Mathlib.Data.String.Basic

/-!
The order of texts by their characters is that of their UTF-8 bytes.
-/

set_option autoImplicit false

namespace Classpath.Text

/-- A text in UTF-8. -/
def utf8Bytes (text : String) : Bytes := text.toUTF8.data.toList

theorem utf8Bytes_eq (text : String) :
    utf8Bytes text = text.toList.flatMap String.utf8EncodeChar := by
  rw [utf8Bytes, String.toUTF8_eq_toByteArray, ← String.utf8Encode_toList]
  simp [List.utf8Encode]

/-- The last six bits of a number, in a byte behind the first. -/
def sextet (n : Nat) : UInt8 := UInt8.ofNat (n % 64 + 128)

/-- A number in front of `rest`, with `count` bytes of six bits behind the first, which is
marked. -/
def spell (mark : Nat) : Nat → Nat → Bytes → Bytes
  | 0, n, rest => UInt8.ofNat (n + mark) :: rest
  | count + 1, n, rest => spell mark count (n / 64) (sextet n :: rest)

theorem ofNat_lt_ofNat {m n : Nat} (small : n < 256) (less : m < n) :
    UInt8.ofNat m < UInt8.ofNat n := by
  have smaller : m < 256 := by omega
  rw [UInt8.lt_iff_toNat_lt, UInt8.toNat_ofNat_of_lt' small, UInt8.toNat_ofNat_of_lt' smaller]
  exact less

theorem spell_eq_cons (mark count n : Nat) (rest : Bytes) :
    ∃ others, spell mark count n rest = UInt8.ofNat (n / 64 ^ count + mark) :: others := by
  induction count generalizing n rest with
  | zero => exact ⟨rest, by rw [spell, Nat.pow_zero, Nat.div_one]⟩
  | succ count ih =>
      obtain ⟨others, first⟩ := ih (n / 64) (sextet n :: rest)
      refine ⟨others, ?_⟩
      rw [spell, first, Nat.div_div_eq_div_mul, Nat.pow_succ']

theorem spell_lt_iff (mark count n : Nat) (front back : Bytes) :
    spell mark count n front < spell mark count n back ↔ front < back := by
  induction count generalizing n front back with
  | zero => exact List.cons_lt_cons_self
  | succ count ih =>
      rw [spell, spell, ih]
      exact List.cons_lt_cons_self

/-- Of two numbers spelled alike the lesser one has the lesser bytes: what stands in front of the
last six bits decides, and only where that is equal they do. -/
theorem spell_lt {mark count m n : Nat} (less : m < n) (small : n / 64 ^ count + mark < 256)
    (front back : Bytes) : spell mark count m front < spell mark count n back := by
  induction count generalizing m n front back with
  | zero =>
      rw [Nat.pow_zero, Nat.div_one] at small
      exact List.cons_lt_cons_iff.mpr (Or.inl (ofNat_lt_ofNat small (by omega)))
  | succ count ih =>
      rw [spell, spell]
      by_cases decided : m / 64 < n / 64
      · rw [Nat.pow_succ', ← Nat.div_div_eq_div_mul] at small
        exact ih decided small _ _
      · have same : m / 64 = n / 64 := by omega
        rw [same, spell_lt_iff]
        exact List.cons_lt_cons_iff.mpr (Or.inl (ofNat_lt_ofNat (by omega) (by omega)))

/-- How many bytes a character takes behind its first. -/
def extra (n : Nat) : Nat :=
  if n ≤ 127 then 0 else if n ≤ 2047 then 1 else if n ≤ 65535 then 2 else 3

/-- What is added to the first of the bytes. -/
def mark : Nat → Nat
  | 0 => 0
  | 1 => 192
  | 2 => 224
  | _ => 240

theorem utf8EncodeChar_append (c : Char) (rest : Bytes) :
    String.utf8EncodeChar c ++ rest =
      spell (mark (extra c.val.toNat)) (extra c.val.toNat) c.val.toNat rest := by
  have bounded : c.val.toNat < 1114112 := by
    rcases c.valid with low | high <;> omega
  unfold String.utf8EncodeChar extra
  generalize c.val.toNat = n at bounded ⊢
  dsimp only
  split
  · rfl
  split
  · have fits : n / 64 % 32 = n / 64 := by omega
    rw [fits]
    rfl
  split
  · have fits : n / 4096 % 16 = n / 64 / 64 := by omega
    rw [fits]
    rfl
  · have fits : n / 262144 % 8 = n / 64 / 64 / 64 := by omega
    have middle : n / 4096 % 64 = n / 64 / 64 % 64 := by omega
    rw [fits, middle]
    rfl

/-- A lesser character is told from a greater one by its own bytes, whatever stands behind: by the
first byte where they take different numbers of bytes. -/
theorem utf8EncodeChar_append_lt {c d : Char} (less : c < d) (front back : Bytes) :
    String.utf8EncodeChar c ++ front < String.utf8EncodeChar d ++ back := by
  have below : c.val.toNat < d.val.toNat := less
  have bounded : d.val.toNat < 1114112 := by
    rcases d.valid with low | high <;> omega
  rw [utf8EncodeChar_append, utf8EncodeChar_append]
  generalize c.val.toNat = m at below ⊢
  generalize d.val.toNat = n at below bounded ⊢
  have small : n / 64 ^ extra n + mark (extra n) < 256 := by
    unfold extra
    split_ifs <;> simp only [mark] <;> omega
  by_cases same : extra m = extra n
  · rw [same]
    exact spell_lt below small front back
  · obtain ⟨others, first⟩ := spell_eq_cons (mark (extra m)) (extra m) m front
    obtain ⟨others', first'⟩ := spell_eq_cons (mark (extra n)) (extra n) n back
    have lead : m / 64 ^ extra m + mark (extra m) < n / 64 ^ extra n + mark (extra n) := by
      unfold extra at same ⊢
      split_ifs at same ⊢ <;> simp only [mark] <;> omega
    rw [first, first']
    exact List.cons_lt_cons_iff.mpr (Or.inl (ofNat_lt_ofNat small lead))

theorem flatMap_utf8EncodeChar_lt {front back : List Char} (less : front < back) :
    front.flatMap String.utf8EncodeChar < back.flatMap String.utf8EncodeChar := by
  induction front generalizing back with
  | nil =>
      cases back with
      | nil => exact absurd less (List.not_lt_nil [])
      | cons d rest =>
          obtain ⟨others, first⟩ := spell_eq_cons (mark (extra d.val.toNat)) (extra d.val.toNat)
            d.val.toNat (rest.flatMap String.utf8EncodeChar)
          rw [List.flatMap_cons, utf8EncodeChar_append, first]
          exact List.nil_lt_cons _ _
  | cons c front ih =>
      cases back with
      | nil => exact absurd less (List.not_lt_nil _)
      | cons d back =>
          rw [List.flatMap_cons, List.flatMap_cons]
          rcases List.cons_lt_cons_iff.mp less with first | ⟨rfl, rest⟩
          · exact utf8EncodeChar_append_lt first _ _
          · rw [utf8EncodeChar_append, utf8EncodeChar_append, spell_lt_iff]
            exact ih rest

/-- Texts are ordered as their UTF-8 bytes are. -/
theorem utf8Bytes_lt {one other : String} (less : one < other) :
    utf8Bytes one < utf8Bytes other := by
  rw [utf8Bytes_eq, utf8Bytes_eq]
  exact flatMap_utf8EncodeChar_lt (String.lt_iff_toList_lt.mp less)

theorem utf8Bytes_lt_iff (one other : String) :
    utf8Bytes one < utf8Bytes other ↔ one < other := by
  refine ⟨fun less => ?_, utf8Bytes_lt⟩
  rcases lt_trichotomy one other with below | same | above
  · exact below
  · rw [same] at less
    exact absurd less (List.lt_irrefl _)
  · exact absurd less (List.lt_asymm (utf8Bytes_lt above))

theorem utf8Bytes_le_iff (one other : String) :
    utf8Bytes one ≤ utf8Bytes other ↔ one ≤ other := by
  rw [← List.not_lt, ← not_lt, utf8Bytes_lt_iff]

section Sorted

variable {α κ : Type} [LE κ] [DecidableLE κ] [Std.IsLinearOrder κ]

/-- What is sorted by keys ascends by them. -/
theorem pairwise_mergeSort (key : α → κ) (items : List α) :
    (items.mergeSort fun one other => key one ≤ key other).Pairwise
      fun one other => key one ≤ key other := by
  have trans (one other third : α) (first : decide (key one ≤ key other) = true)
      (second : decide (key other ≤ key third) = true) : decide (key one ≤ key third) = true := by
    simp only [decide_eq_true_eq] at first second ⊢
    exact Std.le_trans first second
  have total (one other : α) :
      (decide (key one ≤ key other) || decide (key other ≤ key one)) = true := by
    rw [Bool.or_eq_true, decide_eq_true_eq, decide_eq_true_eq]
    exact Std.le_total
  exact (List.pairwise_mergeSort trans total items).imp of_decide_eq_true

/-- Where the keys are distinct it ascends strictly. -/
theorem pairwise_lt_mergeSort [LT κ] [Std.LawfulOrderLT κ] {key : α → κ} {items : List α}
    (distinct : (items.map key).Nodup) :
    (items.mergeSort fun one other => key one ≤ key other).Pairwise
      fun one other => key one < key other := by
  have apart : (items.mergeSort fun one other => key one ≤ key other).Pairwise
      fun one other => key one ≠ key other := by
    apply List.pairwise_map.mp
    exact ((List.mergeSort_perm items _).map key).nodup_iff.mpr distinct
  exact ((pairwise_mergeSort key items).and apart).imp fun both => Std.lt_of_le_of_ne both.1 both.2

end Sorted

end Classpath.Text
