import Classpath.Text.ModifiedUtf8

/-!
Texts in class files. Main statement: whatever UTF-16 units a text was written from, reading it
gives what those units stand for, by whichever of the two ways it is read.
-/

set_option autoImplicit false

namespace Classpath.Text

namespace Utf16

theorem decodeLossy_cons_of_plain (unit : UInt16) (rest : List UInt16)
    (notHigh : isHigh unit = false) (notLow : isLow unit = false) :
    decodeLossy (unit :: rest) = Char.ofNat unit.toNat :: decodeLossy rest := by
  cases rest with
  | nil => simp [decodeLossy, notHigh, notLow]
  | cons next rest => simp [decodeLossy, notHigh, notLow]

theorem decodeLossy_cons_pair (high low : UInt16) (rest : List UInt16)
    (isHigh : isHigh high = true) (isLow : isLow low = true) :
    decodeLossy (high :: low :: rest) = pair high low :: decodeLossy rest := by
  simp [decodeLossy, isHigh, isLow]

theorem isHigh_iff (unit : UInt16) :
    isHigh unit = true ↔ 0xD800 ≤ unit.toNat ∧ unit.toNat ≤ 0xDBFF := by
  simp [isHigh, UInt16.le_iff_toNat_le]

theorem isLow_iff (unit : UInt16) :
    isLow unit = true ↔ 0xDC00 ≤ unit.toNat ∧ unit.toNat ≤ 0xDFFF := by
  simp [isLow, UInt16.le_iff_toNat_le]

/-- No character is a surrogate, and none is beyond 10FFFF. -/
theorem toNat_char (c : Char) :
    c.toNat < 0xD800 ∨ (0xDFFF < c.toNat ∧ c.toNat < 0x110000) :=
  c.valid

theorem decodeLossy_encodeChar_append (c : Char) (rest : List UInt16) :
    decodeLossy (encodeChar c ++ rest) = c :: decodeLossy rest := by
  have valid := toNat_char c
  unfold encodeChar
  dsimp only
  by_cases narrow : c.toNat < 0x10000
  · have known : (UInt16.ofNat c.toNat).toNat = c.toNat := UInt16.toNat_ofNat_of_lt' narrow
    have notHigh : isHigh (UInt16.ofNat c.toNat) = false := by
      rw [← Bool.not_eq_true, isHigh_iff, known]
      omega
    have notLow : isLow (UInt16.ofNat c.toNat) = false := by
      rw [← Bool.not_eq_true, isLow_iff, known]
      omega
    rw [if_pos narrow]
    simp only [List.cons_append, List.nil_append]
    rw [decodeLossy_cons_of_plain _ _ notHigh notLow, known, Char.ofNat_toNat]
  · have highSmall : 0xD800 + (c.toNat - 0x10000) / 0x400 < 0x10000 := by omega
    have highNat := UInt16.toNat_ofNat_of_lt' highSmall
    have lowSmall : 0xDC00 + (c.toNat - 0x10000) % 0x400 < 0x10000 := by omega
    have lowNat := UInt16.toNat_ofNat_of_lt' lowSmall
    have high : isHigh (UInt16.ofNat (0xD800 + (c.toNat - 0x10000) / 0x400)) = true := by
      rw [isHigh_iff, highNat]
      omega
    have low : isLow (UInt16.ofNat (0xDC00 + (c.toNat - 0x10000) % 0x400)) = true := by
      rw [isLow_iff, lowNat]
      omega
    have whole : 0x10000 + 0x400 * (0xD800 + (c.toNat - 0x10000) / 0x400 - 0xD800) +
        (0xDC00 + (c.toNat - 0x10000) % 0x400 - 0xDC00) = c.toNat := by
      omega
    rw [if_neg narrow]
    simp only [List.cons_append, List.nil_append]
    rw [decodeLossy_cons_pair _ _ _ high low, pair, highNat, lowNat, whole, Char.ofNat_toNat]

/-- Units that were written from characters are read as those, whatever is behind them. -/
theorem decodeLossy_encode_append (text : List Char) (rest : List UInt16) :
    decodeLossy (encode text ++ rest) = text ++ decodeLossy rest := by
  induction text with
  | nil => rfl
  | cons c text ih =>
      change decodeLossy (encodeChar c ++ encode text ++ rest) = _
      rw [List.append_assoc, decodeLossy_encodeChar_append, ih, List.cons_append]

theorem decodeLossy_encode (text : List Char) : decodeLossy (encode text) = text := by
  have whole := decodeLossy_encode_append text []
  rwa [List.append_nil, decodeLossy, List.append_nil] at whole

end Utf16

namespace Utf8

theorem isContinuation_iff (byte : UInt8) :
    isContinuation byte = true ↔ 0x80 ≤ byte.toNat ∧ byte.toNat ≤ 0xBF := by
  simp [isContinuation, UInt8.le_iff_toNat_le]

theorem secondOfThree_iff (lead byte : UInt8) : secondOfThree lead byte = true ↔
    0x80 ≤ byte.toNat ∧ byte.toNat ≤ 0xBF ∧ (lead.toNat = 0xE0 → 0xA0 ≤ byte.toNat) ∧
      (lead.toNat = 0xED → byte.toNat ≤ 0x9F) := by
  have leadE0 : lead = 0xE0 ↔ lead.toNat = 0xE0 := by simp [← UInt8.toNat_inj]
  have leadED : lead = 0xED ↔ lead.toNat = 0xED := by simp [← UInt8.toNat_inj]
  unfold secondOfThree
  split
  · rename_i first
    simp [UInt8.le_iff_toNat_le, leadE0.mp first]
    omega
  · rename_i notFirst
    split
    · rename_i second
      simp [UInt8.le_iff_toNat_le, leadED.mp second]
      omega
    · rename_i notSecond
      rw [leadE0] at notFirst
      rw [leadED] at notSecond
      rw [isContinuation_iff]
      omega

/-! One step, by the length of the group that the lead begins. -/

variable (lead second third : UInt8) (rest : Bytes)

theorem step_one (lower : lead.toNat < 0x80) :
    step lead rest = (some (Char.ofNat lead.toNat), 0) := by
  have single : lead < 0x80 := UInt8.lt_iff_toNat_lt.mpr lower
  unfold step
  rw [if_pos single]

theorem step_two (lower : 0xC2 ≤ lead.toNat) (upper : lead.toNat ≤ 0xDF)
    (continued : isContinuation second = true) :
    step lead (second :: rest) =
      (some (Char.ofNat (64 * (lead.toNat % 32) + payload second)), 1) := by
  have notOne : ¬ lead < 0x80 := by
    rw [UInt8.lt_iff_toNat_lt]
    exact Nat.not_lt.mpr (Nat.le_trans (by decide) lower)
  simp [step, notOne, UInt8.le_iff_toNat_le, lower, upper, continued]

/-- Two bytes of a zero are no shortest form. -/
theorem step_overlong (lower : 0x80 ≤ lead.toNat) (upper : lead.toNat < 0xC2) :
    step lead rest = (none, 0) := by
  have notOne : ¬ lead < 0x80 := by
    rw [UInt8.lt_iff_toNat_lt]
    exact Nat.not_lt.mpr lower
  have notTwo : ¬ 0xC2 ≤ lead.toNat := by omega
  have notThree : ¬ 0xE0 ≤ lead.toNat := by omega
  have notFour : ¬ 0xF0 ≤ lead.toNat := by omega
  simp [step, notOne, UInt8.le_iff_toNat_le, notTwo, notThree, notFour]

theorem step_three (lower : 0xE0 ≤ lead.toNat) (upper : lead.toNat ≤ 0xEF)
    (followed : secondOfThree lead second = true) (continued : isContinuation third = true) :
    step lead (second :: third :: rest) =
      (some (Char.ofNat (4096 * (lead.toNat % 16) + 64 * payload second + payload third)), 2) := by
  have notOne : ¬ lead < 0x80 := by
    rw [UInt8.lt_iff_toNat_lt]
    exact Nat.not_lt.mpr (Nat.le_trans (by decide) lower)
  have notTwo : ¬ lead.toNat ≤ 0xDF := by omega
  simp [step, notOne, UInt8.le_iff_toNat_le, notTwo, lower, upper, followed, continued]

theorem step_three_broken (lower : 0xE0 ≤ lead.toNat) (upper : lead.toNat ≤ 0xEF)
    (broken : secondOfThree lead second = false) : step lead (second :: rest) = (none, 0) := by
  have notOne : ¬ lead < 0x80 := by
    rw [UInt8.lt_iff_toNat_lt]
    exact Nat.not_lt.mpr (Nat.le_trans (by decide) lower)
  have notTwo : ¬ lead.toNat ≤ 0xDF := by omega
  simp [step, notOne, UInt8.le_iff_toNat_le, notTwo, lower, upper, broken]

theorem steps_cons :
    steps (lead :: rest) = (step lead rest).1 :: steps (rest.drop (step lead rest).2) := by
  rw [steps]

theorem decode?_of_steps {bytes rest : Bytes} {c : Char}
    (stepped : steps bytes = some c :: steps rest) :
    decode? bytes = (decode? rest).map (c :: ·) := by
  rw [decode?, decode?, stepped, List.mapM_cons]
  cases (steps rest).mapM id with
  | none => rfl
  | some text => rfl

theorem decode?_of_steps_none {bytes : Bytes} {later : List (Option Char)}
    (stepped : steps bytes = none :: later) : decode? bytes = none := by
  rw [decode?, stepped, List.mapM_cons]
  rfl

end Utf8

namespace ModifiedUtf8

open Utf16 (isHigh isLow)

/-- The bytes of the group of a unit, by how many there are. -/
theorem encodeUnit_cases (unit : UInt16) :
    (∃ lead, encodeUnit unit = [lead] ∧ 0 < unit.toNat ∧ unit.toNat < 0x80 ∧
      lead.toNat = unit.toNat) ∨
    (∃ lead second, encodeUnit unit = [lead, second] ∧
      (unit.toNat = 0 ∨ 0x80 ≤ unit.toNat) ∧ unit.toNat < 0x800 ∧
      lead.toNat = 0xC0 + unit.toNat / 64 ∧ second.toNat = 0x80 + unit.toNat % 64) ∨
    (∃ lead second third, encodeUnit unit = [lead, second, third] ∧ 0x800 ≤ unit.toNat ∧
      lead.toNat = 0xE0 + unit.toNat / 4096 ∧ second.toNat = 0x80 + unit.toNat / 64 % 64 ∧
      third.toNat = 0x80 + unit.toNat % 64) := by
  have bound : unit.toNat < 0x10000 := unit.toNat_lt
  have byte (n : Nat) (small : n < 0x100) : (UInt8.ofNat n).toNat = n :=
    UInt8.toNat_ofNat_of_lt' small
  unfold encodeUnit
  dsimp only
  by_cases one : 0 < unit.toNat ∧ unit.toNat < 0x80
  · rw [if_pos one]
    exact Or.inl ⟨_, rfl, one.1, one.2, byte _ (by omega)⟩
  · rw [if_neg one]
    by_cases two : unit.toNat < 0x800
    · rw [if_pos two]
      exact Or.inr (Or.inl ⟨_, _, rfl, by omega, two, byte _ (by omega), byte _ (by omega)⟩)
    · rw [if_neg two]
      exact Or.inr (Or.inr ⟨_, _, _, rfl, by omega, byte _ (by omega), byte _ (by omega),
        byte _ (by omega)⟩)

/-! One group, by the length that its lead tells. -/

section Groups

variable (lead second third : UInt8) (rest : Bytes)

theorem units_cons_one (upper : lead.toNat < 0x80) :
    units (lead :: rest) = lead.toUInt16 :: units rest := by
  rw [units.eq_def]
  simp [UInt8.lt_iff_toNat_lt, upper]

theorem units_cons_two (lower : 0xC0 ≤ lead.toNat) (upper : lead.toNat ≤ 0xDF) :
    units (lead :: second :: rest) = unitOfTwo lead second :: units rest := by
  have notOne : ¬ lead.toNat < 0x80 := by omega
  simp [units, UInt8.lt_iff_toNat_lt, UInt8.le_iff_toNat_le, notOne, lower, upper]

theorem units_cons_three (lower : 0xE0 ≤ lead.toNat) (upper : lead.toNat ≤ 0xEF) :
    units (lead :: second :: third :: rest) = unitOfThree lead second third :: units rest := by
  have notOne : ¬ lead.toNat < 0x80 := by omega
  have notTwo : ¬ lead.toNat ≤ 0xDF := by omega
  rw [units]
  simp [UInt8.lt_iff_toNat_lt, UInt8.le_iff_toNat_le, notOne, notTwo, lower, upper]

end Groups

/-- Reading is in step again behind each group. -/
theorem units_encodeUnit_append (unit : UInt16) (rest : Bytes) :
    units (encodeUnit unit ++ rest) = unit :: units rest := by
  have bound : unit.toNat < 0x10000 := unit.toNat_lt
  rcases encodeUnit_cases unit with
    ⟨lead, encoded, positive, small, first⟩ |
    ⟨lead, second, encoded, apart, small, first, next⟩ |
    ⟨lead, second, third, encoded, large, first, next, last⟩
  · have same : lead.toUInt16 = unit := by
      rw [← UInt16.toNat_inj, UInt8.toNat_toUInt16, first]
    rw [encoded, List.singleton_append, units_cons_one lead rest (by omega), same]
  · have value : 64 * (lead.toNat % 32) + second.toNat % 64 = unit.toNat := by omega
    have same : unitOfTwo lead second = unit := by
      rw [unitOfTwo, value, UInt16.ofNat_toNat]
    simp only [encoded, List.cons_append, List.nil_append]
    rw [units_cons_two lead second rest (by omega) (by omega), same]
  · have value : 4096 * (lead.toNat % 16) + 64 * (second.toNat % 64) + third.toNat % 64 =
        unit.toNat := by
      omega
    have same : unitOfThree lead second third = unit := by
      rw [unitOfThree, value, UInt16.ofNat_toNat]
    simp only [encoded, List.cons_append, List.nil_append]
    rw [units_cons_three lead second third rest (by omega) (by omega), same]

theorem units_encode (written : List UInt16) : units (encode written) = written := by
  induction written with
  | nil => rfl
  | cons unit written ih =>
      change units (encodeUnit unit ++ encode written) = _
      rw [units_encodeUnit_append, ih]

/-- A unit that is written as UTF-8 would write it: neither zero nor a surrogate. -/
def isPlain (unit : UInt16) : Bool := 0 < unit && !isHigh unit && !isLow unit

theorem isPlain_iff (unit : UInt16) : isPlain unit = true ↔
    0 < unit.toNat ∧ (unit.toNat < 0xD800 ∨ 0xDFFF < unit.toNat) := by
  rw [isPlain, Bool.and_eq_true, Bool.and_eq_true, decide_eq_true_iff, Bool.not_eq_true',
    Bool.not_eq_true', ← Bool.not_eq_true, ← Bool.not_eq_true, Utf16.isHigh_iff, Utf16.isLow_iff,
    UInt16.lt_iff_toNat_lt]
  simp only [UInt16.toNat_zero]
  omega

theorem steps_encodeUnit_append {unit : UInt16} (plain : isPlain unit = true) (rest : Bytes) :
    Utf8.steps (encodeUnit unit ++ rest) = some (Char.ofNat unit.toNat) :: Utf8.steps rest := by
  have bound : unit.toNat < 0x10000 := unit.toNat_lt
  obtain ⟨positive, noSurrogate⟩ := (isPlain_iff unit).mp plain
  rcases encodeUnit_cases unit with
    ⟨lead, encoded, _, small, first⟩ |
    ⟨lead, second, encoded, apart, small, first, next⟩ |
    ⟨lead, second, third, encoded, large, first, next, last⟩
  · rw [encoded, List.singleton_append, Utf8.steps_cons, Utf8.step_one lead rest (by omega), first]
    rfl
  · have continued := (Utf8.isContinuation_iff second).mpr (by omega)
    have value : 64 * (lead.toNat % 32) + Utf8.payload second = unit.toNat := by
      rw [Utf8.payload]
      omega
    simp only [encoded, List.cons_append, List.nil_append]
    rw [Utf8.steps_cons, Utf8.step_two lead second rest (by omega) (by omega) continued, value]
    rfl
  · have followed := (Utf8.secondOfThree_iff lead second).mpr (by omega)
    have continued := (Utf8.isContinuation_iff third).mpr (by omega)
    have value : 4096 * (lead.toNat % 16) + 64 * Utf8.payload second + Utf8.payload third =
        unit.toNat := by
      rw [Utf8.payload, Utf8.payload]
      omega
    simp only [encoded, List.cons_append, List.nil_append]
    rw [Utf8.steps_cons,
      Utf8.step_three lead second third rest (by omega) (by omega) followed continued, value]
    rfl

/-- The two bytes of a zero and the three of a surrogate are ill-formed as UTF-8. -/
theorem steps_encodeUnit_append_none {unit : UInt16} (notPlain : isPlain unit = false)
    (rest : Bytes) : ∃ later, Utf8.steps (encodeUnit unit ++ rest) = none :: later := by
  have bound : unit.toNat < 0x10000 := unit.toNat_lt
  have special : unit.toNat = 0 ∨ (0xD800 ≤ unit.toNat ∧ unit.toNat ≤ 0xDFFF) := by
    rw [← Bool.not_eq_true, isPlain_iff] at notPlain
    omega
  rcases encodeUnit_cases unit with
    ⟨lead, encoded, positive, small, _⟩ |
    ⟨lead, second, encoded, apart, small, first, _⟩ |
    ⟨lead, second, third, encoded, large, first, next, _⟩
  · omega
  · simp only [encoded, List.cons_append, List.nil_append]
    rw [Utf8.steps_cons, Utf8.step_overlong lead (second :: rest) (by omega) (by omega)]
    exact ⟨_, rfl⟩
  · have broken : Utf8.secondOfThree lead second = false := by
      rw [← Bool.not_eq_true, Utf8.secondOfThree_iff]
      omega
    simp only [encoded, List.cons_append, List.nil_append]
    rw [Utf8.steps_cons,
      Utf8.step_three_broken lead second (third :: rest) (by omega) (by omega) broken]
    exact ⟨_, rfl⟩

/-- What was written is UTF-8 as it stands exactly if all units are plain, and then it is read as
UTF-8 to the same end. -/
theorem decode?_encode (written : List UInt16) : Utf8.decode? (encode written) =
    if written.all isPlain then some (Utf16.decodeLossy written) else none := by
  induction written with
  | nil => simp [encode, Utf8.decode?, Utf8.steps, Utf16.decodeLossy]
  | cons unit written ih =>
      change Utf8.decode? (encodeUnit unit ++ encode written) = _
      cases plain : isPlain unit with
      | false =>
          obtain ⟨later, stepped⟩ := steps_encodeUnit_append_none plain (encode written)
          rw [Utf8.decode?_of_steps_none stepped, List.all_cons, plain]
          rfl
      | true =>
          have noSurrogate := plain
          simp only [isPlain, Bool.and_eq_true, Bool.not_eq_true'] at noSurrogate
          rw [Utf8.decode?_of_steps (steps_encodeUnit_append plain (encode written)), ih,
            List.all_cons, plain, Bool.true_and,
            Utf16.decodeLossy_cons_of_plain unit written noSurrogate.1.2 noSurrogate.2]
          split
          · rfl
          · rfl

/-- Units that were written are read as what they stand for, whether the text is read as UTF-8,
which it is exactly if all of them are plain, or group by group; so every text is read as it was
written. -/
theorem decode_encode :
    (∀ written : List UInt16,
      Utf8.decode? (encode written) =
        (if written.all isPlain then some (Utf16.decodeLossy written) else none) ∧
      decodeGroups (encode written) = Utf16.decodeLossy written ∧
      decode (encode written) = String.ofList (Utf16.decodeLossy written)) ∧
    ∀ text : String, decode (encode (Utf16.encode text.toList)) = text := by
  have groups (written : List UInt16) :
      decodeGroups (encode written) = Utf16.decodeLossy written := by
    rw [decodeGroups, units_encode]
  have whole (written : List UInt16) :
      decode (encode written) = String.ofList (Utf16.decodeLossy written) := by
    rw [decode, decodeChars, decode?_encode, groups]
    split
    · rename_i text taken
      split at taken
      · rw [Option.some.inj taken]
      · cases taken
    · rfl
  refine ⟨fun written => ⟨decode?_encode written, groups written, whole written⟩, ?_⟩
  intro text
  rw [whole, Utf16.decodeLossy_encode, String.ofList_toList]

/-- A zero and a surrogate pair between letters. -/
example : decode [0x61, 0xC0, 0x80, 0xED, 0xA0, 0xBD, 0xED, 0xB8, 0x80] = "a\x00😀" := by
  decide +kernel

end ModifiedUtf8

end Classpath.Text
