import Mathlib.Algebra.GroupWithZero.Nat
import Classpath.Proofs.ClassFile.Pool

/-!
The numbers of the constants in a pool. Main statement: a written pool is read back with every
constant at the place where it starts, and in every pool that is read the only empty places are
place zero and the second places of constants of two.
-/

set_option autoImplicit false

namespace Classpath

theorem Constant.slots_eq_two_iff (constant : Constant) :
    constant.slots = 2 ↔ (∃ value, constant = .long value) ∨ ∃ bits, constant = .double bits := by
  cases constant <;> simp [slots]

namespace RawPool

/-- How many places constants take together. -/
def span (constants : List RawConstant) : Nat := (constants.map RawConstant.slots).sum

theorem span_cons (raw : RawConstant) (rest : List RawConstant) :
    span (raw :: rest) = raw.slots + span rest := by
  simp only [span, List.map_cons, List.sum_cons]

/-- A constant behind others starts behind all the places that they take. -/
theorem startingAt?_append (index : Nat) (front : List RawConstant) (each : RawConstant)
    (back : List RawConstant) :
    startingAt? (index + span front) index (front ++ each :: back) = some each := by
  induction front generalizing index with
  | nil => simp [span, startingAt?]
  | cons raw rest ih =>
      have positive := raw.slots_pos
      have apart : index ≠ index + span (raw :: rest) := by
        rw [span_cons]
        omega
      have farther : index + span (raw :: rest) = index + raw.slots + span rest := by
        rw [span_cons]
        omega
      rw [List.cons_append, startingAt?, if_neg apart, farther]
      exact ih (index + raw.slots)

/-- Constants that fill the places up to a count start at places below it. -/
theorem lt_of_fills_append (count index : Nat) (front : List RawConstant) (each : RawConstant)
    (back : List RawConstant) (filled : Fills count index (front ++ each :: back)) :
    index + span front < count := by
  induction front generalizing index with
  | nil => exact filled.1
  | cons raw rest ih =>
      have further := ih (index + raw.slots) filled.2
      rw [span_cons]
      omega

/-- A table has one entry for each place up to the count. -/
theorem length_laidOut (count index : Nat) (constants : List RawConstant)
    (filled : Fills count index constants) :
    (laidOut count index constants).length = count - index := by
  induction constants generalizing index with
  | nil =>
      have full : count ≤ index := filled
      rw [laidOut, List.length_nil]
      omega
  | cons raw rest ih =>
      have room := filled.1
      have further := ih (index + raw.slots) filled.2
      rw [laidOut, List.length_cons, List.length_append, further]
      rcases slots_eq raw with narrow | wide
      · rw [narrow, if_neg (by omega), List.length_nil]
        omega
      · rw [wide]
        by_cases inside : index + 1 < count
        · rw [if_pos ⟨rfl, inside⟩, List.length_singleton]
          omega
        · rw [if_neg fun both => inside both.2, List.length_nil]
          omega

theorem size_entries (raw : RawPool) : raw.pool.entries.size = max 1 raw.count.toNat := by
  have sized := length_laidOut _ 1 _ raw.filled
  simp only [pool, List.size_toArray, List.length_cons, sized]
  omega

/-- There is a constant at the first place that is to be filled. -/
theorem startingAt?_self (count index : Nat) (constants : List RawConstant)
    (filled : Fills count index constants) (room : index < count) :
    ∃ raw, startingAt? index index constants = some raw := by
  cases constants with
  | nil =>
      have full : count ≤ index := filled
      omega
  | cons raw rest => exact ⟨raw, by rw [startingAt?, if_pos rfl]⟩

/-- Behind the first place, no constant starts exactly at the second places of constants of two. -/
theorem startingAt?_eq_none_iff (count wanted index : Nat) (constants : List RawConstant)
    (filled : Fills count index constants) (behind : index < wanted) (room : wanted < count) :
    startingAt? wanted index constants = none ↔
      ∃ raw, startingAt? (wanted - 1) index constants = some raw ∧ raw.slots = 2 := by
  induction constants generalizing index with
  | nil =>
      have full : count ≤ index := filled
      omega
  | cons raw rest ih =>
      have filledRest := filled.2
      have apart : index ≠ wanted := by omega
      have slots := slots_eq raw
      by_cases second : wanted < index + raw.slots
      · -- the first constant has a second place, and it is the wanted one
        have wide : raw.slots = 2 := by omega
        have before : index = wanted - 1 := by omega
        have absent : startingAt? wanted index (raw :: rest) = none := by
          rw [startingAt?, if_neg apart, startingAt?_eq_none _ _ _ second]
        have present : startingAt? (wanted - 1) index (raw :: rest) = some raw := by
          rw [startingAt?, if_pos before]
        exact iff_of_true absent ⟨raw, present, wide⟩
      · by_cases next : wanted = index + raw.slots
        · -- the wanted place is the one behind the first constant
          obtain ⟨found, present⟩ := startingAt?_self count _ rest filledRest (by omega)
          have filledPlace : startingAt? wanted index (raw :: rest) = some found := by
            rw [startingAt?, if_neg apart, next, present]
          rw [filledPlace]
          refine iff_of_false (Option.some_ne_none found) ?_
          rintro ⟨wide, started, two⟩
          by_cases narrow : index = wanted - 1
          · rw [startingAt?, if_pos narrow] at started
            cases started
            omega
          · rw [startingAt?, if_neg narrow, startingAt?_eq_none _ _ _ (by omega)] at started
            cases started
        · have beyond : index ≠ wanted - 1 := by omega
          rw [startingAt?, if_neg apart, startingAt?, if_neg beyond]
          exact ih _ filledRest (by omega)

/-- Each constant is found at the place where it starts. -/
theorem get?_place (raw : RawPool) (front : List RawConstant) (each : RawConstant)
    (back : List RawConstant) (split : raw.constants = front ++ each :: back) :
    1 + span front < raw.count.toNat ∧
      raw.pool.get? (UInt16.ofNat (1 + span front)) = some each.decoded := by
  have filled := raw.filled
  rw [split] at filled
  have room := lt_of_fills_append _ _ _ _ _ filled
  have bounded := raw.count.toNat_lt
  have small : 1 + span front < 65536 := by omega
  have place : (UInt16.ofNat (1 + span front)).toNat = 1 + span front :=
    UInt16.toNat_ofNat_of_lt' small
  refine ⟨room, ?_⟩
  rw [raw.get?_pool, constant?, place, split, startingAt?_append]
  rfl

/-- Behind place zero, the empty places below the count are those behind a constant of two. -/
theorem get?_eq_none_iff (raw : RawPool) (index : UInt16) (behind : index ≠ 0)
    (room : index < raw.count) :
    raw.pool.get? index = none ↔
      ∃ constant, raw.pool.get? (index - 1) = some constant ∧ constant.slots = 2 := by
  have positive : 0 < index.toNat := by
    have apart := mt UInt16.toNat_inj.mp behind
    exact Nat.pos_of_ne_zero apart
  have before : (index - 1).toNat = index.toNat - 1 :=
    UInt16.toNat_sub_of_le _ _ (UInt16.le_iff_toNat_le.mpr positive)
  have below := UInt16.lt_iff_toNat_lt.mp room
  rw [raw.get?_pool, raw.get?_pool, constant?, constant?, before, Option.map_eq_none_iff]
  by_cases first : index.toNat = 1
  · obtain ⟨found, present⟩ := startingAt?_self _ 1 _ raw.filled (by omega)
    rw [first, present, startingAt?_eq_none _ _ _ Nat.one_pos]
    simp
  · rw [startingAt?_eq_none_iff _ _ _ _ raw.filled (by omega) below]
    simp only [Option.map_eq_some_iff, exists_exists_and_eq_and]
    rfl

/-- No pool has more places than a word counts. -/
theorem toNat_size_pool (raw : RawPool) : raw.pool.size.toNat = max 1 raw.count.toNat := by
  have bounded := raw.count.toNat_lt
  have small : max 1 raw.count.toNat < 65536 := by omega
  rw [Pool.size, raw.size_entries]
  exact UInt16.toNat_ofNat_of_lt' small

/-- The size of a pool is its declared count, and counts place zero even where nothing is
declared. -/
theorem size_pool (raw : RawPool) : raw.pool.size = if raw.count = 0 then 1 else raw.count := by
  apply UInt16.toNat_inj.mp
  rw [raw.toNat_size_pool]
  by_cases empty : raw.count = 0
  · rw [if_pos empty, empty]
    rfl
  · have positive := mt UInt16.toNat_inj.mp empty
    have zero : (0 : UInt16).toNat = 0 := rfl
    rw [if_neg empty]
    omega

theorem get?_eq_none_of_size_le (raw : RawPool) (index : UInt16) (outside : raw.pool.size ≤ index) :
    raw.pool.get? index = none := by
  have above := UInt16.le_iff_toNat_le.mp outside
  rw [raw.toNat_size_pool, ← raw.size_entries] at above
  rw [Pool.get?, Array.getElem?_eq_none above]
  rfl

/-- Below the size, the empty places are place zero and those behind a long or a double. -/
theorem get?_eq_none_iff_of_lt_size (raw : RawPool) (index : UInt16)
    (inside : index < raw.pool.size) :
    raw.pool.get? index = none ↔ index = 0 ∨
      (∃ value, raw.pool.get? (index - 1) = some (.long value)) ∨
        ∃ bits, raw.pool.get? (index - 1) = some (.double bits) := by
  by_cases zero : index = 0
  · have absent : raw.pool.get? 0 = none := rfl
    rw [zero]
    exact iff_of_true absent (Or.inl rfl)
  · have below := UInt16.lt_iff_toNat_lt.mp inside
    have positive : index.toNat ≠ 0 := fun none => zero (UInt16.toNat_inj.mp none)
    rw [raw.toNat_size_pool] at below
    have room : index < raw.count := UInt16.lt_iff_toNat_lt.mpr (by omega)
    rw [raw.get?_eq_none_iff index zero room]
    simp only [Constant.slots_eq_two_iff]
    constructor
    · rintro ⟨constant, found, ⟨value, rfl⟩ | ⟨bits, rfl⟩⟩
      · exact Or.inr (Or.inl ⟨value, found⟩)
      · exact Or.inr (Or.inr ⟨bits, found⟩)
    · rintro (first | ⟨value, found⟩ | ⟨bits, found⟩)
      · exact absurd first zero
      · exact ⟨_, found, Or.inl ⟨value, rfl⟩⟩
      · exact ⟨_, found, Or.inr ⟨bits, rfl⟩⟩

end RawPool

namespace Pool

/-- A pool behind which anything may stand is read back with each constant at the place where it
starts. Of every pool that is read the size is the declared count, nothing is found from there on,
and below it the empty places are place zero and those behind a long or a double. -/
theorem read_numbers_places :
    (∀ (raw : RawPool) (position : Nat) (tail : Bytes), ∃ pool,
      read ⟨position, raw.encode ++ tail⟩ = .ok pool ⟨position + raw.encode.length, tail⟩ ∧
      ∀ front each back, raw.constants = front ++ each :: back →
        1 + RawPool.span front < raw.count.toNat ∧
          pool.get? (UInt16.ofNat (1 + RawPool.span front)) = some each.decoded) ∧
    ∀ cursor pool after, read cursor = .ok pool after → ∃ (count : UInt16) (behind : Bytes),
      cursor.rest = bigEndianBytes 2 count.toNat ++ behind ∧
      pool.size = (if count = 0 then 1 else count) ∧ pool.entries.size = pool.size.toNat ∧
      ∀ index, (pool.size ≤ index → pool.get? index = none) ∧
        (index < pool.size → (pool.get? index = none ↔ index = 0 ∨
          (∃ value, pool.get? (index - 1) = some (.long value)) ∨
            ∃ bits, pool.get? (index - 1) = some (.double bits))) := by
  constructor
  · intro raw position tail
    exact ⟨raw.pool, read_encode raw position tail, raw.get?_place⟩
  · intro cursor pool after ran
    obtain ⟨_, ⟨raw, rfl, rfl⟩, spelled, _⟩ := (reads _ _ _).mp ran
    rw [RawPool.encode, List.append_assoc] at spelled
    have sized : raw.pool.entries.size = raw.pool.size.toNat := by
      rw [raw.toNat_size_pool, raw.size_entries]
    exact ⟨raw.count, _, spelled, raw.size_pool, sized, fun index =>
      ⟨raw.get?_eq_none_of_size_le index, raw.get?_eq_none_iff_of_lt_size index⟩⟩

/-- An integer, and a long in the last place. -/
def overhanging : RawPool :=
  ⟨3, [.other (.integer 5) nofun, .other (.long 9) nofun], by decide⟩

/-- The long in the last place is found there, and nothing is found behind it. -/
theorem overhanging_numbers_places : ∃ pool,
    read ⟨0, overhanging.encode ++ [7]⟩ = .ok pool ⟨0 + overhanging.encode.length, [7]⟩ ∧
      pool.get? 2 = some (.long 9) ∧ pool.size = 3 ∧ pool.get? 3 = none := by
  obtain ⟨pool, ran, places⟩ := read_numbers_places.1 overhanging 0 [7]
  have last := (places [.other (.integer 5) nofun] (.other (.long 9) nofun) [] rfl).2
  obtain ⟨count, behind, spelled, sized, _, holes⟩ := read_numbers_places.2 _ _ _ ran
  have declared : count = 3 := by
    have words : bigEndianBytes 2 3 = bigEndianBytes 2 count.toNat := by
      rw [RawPool.encode, List.append_assoc] at spelled
      exact List.append_inj_left spelled (by rw [length_bigEndianBytes, length_bigEndianBytes])
    have same := bigEndianBytes_injective 2 3 count.toNat (by decide) count.toNat_lt words
    exact UInt16.toNat_inj.mp same.symm
  have size : pool.size = 3 := by
    rw [sized, declared]
    rfl
  have outside := (holes 3).1 (by rw [size]; exact UInt16.le_refl 3)
  exact ⟨pool, ran, last, size, outside⟩

end Pool

end Classpath
