import Classpath.Proofs.Text.ByteOrder
import Classpath.Proofs.Text.ModifiedUtf8

/-!
Texts in class files that are UTF-8 as they stand. Strict decoding accepts the UTF-8 of texts and
nothing else. Where no character takes four bytes, reading group by group comes to the same text;
so a zero in two bytes, for which a whole text is read that way, changes nothing in front of it or
behind it.

Main statement: `ModifiedUtf8.readings_agree`.
-/

set_option autoImplicit false

namespace Classpath.Text

theorem toNat_ofNat {n : Nat} (valid : n < 0xD800 ∨ (0xDFFF < n ∧ n < 0x110000)) :
    (Char.ofNat n).toNat = n := by
  rw [Char.ofNat, dif_pos valid]
  rfl

namespace Utf8

/-- The library's encoding adds the marks on the other side, and keeps of each first part no more
bits than a character has. -/
theorem encodeChar_eq (c : Char) : encodeChar c = String.utf8EncodeChar c := by
  have valid := Utf16.toNat_char c
  have same : c.val.toNat = c.toNat := rfl
  unfold encodeChar String.utf8EncodeChar
  rw [same]
  generalize c.toNat = n at valid ⊢
  have one : n ≤ 127 ↔ n < 0x80 := Nat.lt_succ_iff.symm
  have two : n ≤ 2047 ↔ n < 0x800 := Nat.lt_succ_iff.symm
  have three : n ≤ 65535 ↔ n < 0x10000 := Nat.lt_succ_iff.symm
  simp only [one, two, three]
  split
  · rfl
  split
  · have fits : n / 64 % 32 = n / 64 := by omega
    rw [fits, Nat.add_comm 0xC0, Nat.add_comm 0x80]
  split
  · have fits : n / 4096 % 16 = n / 4096 := by omega
    rw [fits, Nat.add_comm 0xE0, Nat.add_comm 0x80, Nat.add_comm 0x80]
  · have fits : n / 262144 % 8 = n / 262144 := by omega
    rw [fits, Nat.add_comm 0xF0, Nat.add_comm 0x80, Nat.add_comm 0x80, Nat.add_comm 0x80]

theorem encode_toList (text : String) : encode text.toList = utf8Bytes text := by
  rw [utf8Bytes_eq, encode, funext encodeChar_eq]

/-! The bytes of a character are taken for it. -/

theorem secondOfFour_iff (lead byte : UInt8) : secondOfFour lead byte = true ↔
    0x80 ≤ byte.toNat ∧ byte.toNat ≤ 0xBF ∧ (lead.toNat = 0xF0 → 0x90 ≤ byte.toNat) ∧
      (lead.toNat = 0xF4 → byte.toNat ≤ 0x8F) := by
  have leadF0 : lead = 0xF0 ↔ lead.toNat = 0xF0 := by simp [← UInt8.toNat_inj]
  have leadF4 : lead = 0xF4 ↔ lead.toNat = 0xF4 := by simp [← UInt8.toNat_inj]
  unfold secondOfFour
  split
  · rename_i first
    simp [UInt8.le_iff_toNat_le, leadF0.mp first]
    omega
  · rename_i notFirst
    split
    · rename_i second
      simp [UInt8.le_iff_toNat_le, leadF4.mp second]
      omega
    · rename_i notSecond
      rw [leadF0] at notFirst
      rw [leadF4] at notSecond
      rw [isContinuation_iff]
      omega

theorem step_four (lead second third fourth : UInt8) (rest : Bytes) (lower : 0xF0 ≤ lead.toNat)
    (upper : lead.toNat ≤ 0xF4) (followed : secondOfFour lead second = true)
    (continued : isContinuation third = true) (ended : isContinuation fourth = true) :
    step lead (second :: third :: fourth :: rest) =
      (some (Char.ofNat (262144 * (lead.toNat % 8) + 4096 * payload second + 64 * payload third +
        payload fourth)), 3) := by
  have notOne : ¬ lead < 0x80 := by
    rw [UInt8.lt_iff_toNat_lt]
    exact Nat.not_lt.mpr (Nat.le_trans (by decide) lower)
  have notTwo : ¬ lead.toNat ≤ 0xDF := by omega
  have notThree : ¬ lead.toNat ≤ 0xEF := by omega
  simp [step, notOne, UInt8.le_iff_toNat_le, notTwo, notThree, lower, upper, followed, continued,
    ended]

theorem encodeChar_zero {c : Char} (zero : c.toNat = 0) : encodeChar c = [0] := by
  rw [encodeChar, zero]
  rfl

/-- But for the zero, a character of up to three bytes is written as class files write its unit. -/
theorem encodeChar_eq_encodeUnit {c : Char} (positive : 0 < c.toNat) (narrow : c.toNat < 0x10000) :
    encodeChar c = ModifiedUtf8.encodeUnit (UInt16.ofNat c.toNat) := by
  have known : (UInt16.ofNat c.toNat).toNat = c.toNat := UInt16.toNat_ofNat_of_lt' narrow
  simp only [encodeChar, ModifiedUtf8.encodeUnit, known, positive, narrow, true_and, if_true]

theorem exists_four_bytes {c : Char} (wide : 0x10000 ≤ c.toNat) :
    ∃ lead second third fourth, encodeChar c = [lead, second, third, fourth] ∧
      lead.toNat = 0xF0 + c.toNat / 262144 ∧ second.toNat = 0x80 + c.toNat / 4096 % 64 ∧
      third.toNat = 0x80 + c.toNat / 64 % 64 ∧ fourth.toNat = 0x80 + c.toNat % 64 := by
  have valid := Utf16.toNat_char c
  have byte (n : Nat) (small : n < 0x100) : (UInt8.ofNat n).toNat = n :=
    UInt8.toNat_ofNat_of_lt' small
  have notOne : ¬ c.toNat < 0x80 := by omega
  have notTwo : ¬ c.toNat < 0x800 := by omega
  have notThree : ¬ c.toNat < 0x10000 := by omega
  refine ⟨_, _, _, _, ?_, byte _ (by omega), byte _ (by omega), byte _ (by omega),
    byte _ (by omega)⟩
  simp only [encodeChar, notOne, notTwo, notThree, if_false]

theorem steps_encodeChar_append (c : Char) (rest : Bytes) :
    steps (encodeChar c ++ rest) = some c :: steps rest := by
  have valid := Utf16.toNat_char c
  by_cases wide : 0x10000 ≤ c.toNat
  · obtain ⟨lead, second, third, fourth, written, first, next, later, last⟩ :=
      exists_four_bytes wide
    have followed := (secondOfFour_iff lead second).mpr (by omega)
    have continued := (isContinuation_iff third).mpr (by omega)
    have ended := (isContinuation_iff fourth).mpr (by omega)
    have value : 262144 * (lead.toNat % 8) + 4096 * payload second + 64 * payload third +
        payload fourth = c.toNat := by
      rw [payload, payload, payload]
      omega
    rw [written]
    simp only [List.cons_append, List.nil_append]
    rw [steps_cons, step_four lead second third fourth rest (by omega) (by omega) followed
      continued ended, value, Char.ofNat_toNat]
    rfl
  by_cases positive : 0 < c.toNat
  · have narrow : c.toNat < 0x10000 := by omega
    have known : (UInt16.ofNat c.toNat).toNat = c.toNat := UInt16.toNat_ofNat_of_lt' narrow
    have plain : ModifiedUtf8.isPlain (UInt16.ofNat c.toNat) = true := by
      rw [ModifiedUtf8.isPlain_iff, known]
      omega
    rw [encodeChar_eq_encodeUnit positive narrow, ModifiedUtf8.steps_encodeUnit_append plain,
      known, Char.ofNat_toNat]
  · have zero : c.toNat = 0 := by omega
    have same : Char.ofNat (0 : UInt8).toNat = c := by
      rw [← Char.ofNat_toNat c, zero]
      rfl
    rw [encodeChar_zero zero, List.singleton_append, steps_cons, step_one 0 rest (by decide), same]
    rfl

theorem decode?_encode_append (text : List Char) (rest : Bytes) :
    decode? (encode text ++ rest) = (decode? rest).map (text ++ ·) := by
  induction text with
  | nil => simp [encode]
  | cons c text ih =>
      change decode? (encodeChar c ++ encode text ++ rest) = _
      rw [List.append_assoc, decode?_of_steps (steps_encodeChar_append c _), ih, Option.map_map]
      rfl

/-! What is taken for a character is the bytes of that character, by how many they are. -/

theorem ofNat_eq (byte : UInt8) {n : Nat} (same : n = byte.toNat) : UInt8.ofNat n = byte := by
  rw [same, UInt8.ofNat_toNat]

theorem encodeChar_one {lead : UInt8} (upper : lead.toNat < 0x80) :
    encodeChar (Char.ofNat lead.toNat) = [lead] := by
  rw [encodeChar, toNat_ofNat (by omega), if_pos upper, UInt8.ofNat_toNat]

theorem encodeChar_two {lead second : UInt8} (lower : 0xC2 ≤ lead.toNat)
    (upper : lead.toNat ≤ 0xDF) (continued : isContinuation second = true) :
    encodeChar (Char.ofNat (64 * (lead.toNat % 32) + payload second)) = [lead, second] := by
  obtain ⟨low, high⟩ := (isContinuation_iff second).mp continued
  rw [payload, encodeChar, toNat_ofNat (by omega), if_neg (by omega), if_pos (by omega),
    ofNat_eq lead (by omega), ofNat_eq second (by omega)]

theorem encodeChar_three {lead second third : UInt8} (lower : 0xE0 ≤ lead.toNat)
    (upper : lead.toNat ≤ 0xEF) (followed : secondOfThree lead second = true)
    (continued : isContinuation third = true) :
    encodeChar (Char.ofNat (4096 * (lead.toNat % 16) + 64 * payload second + payload third)) =
      [lead, second, third] := by
  obtain ⟨low, high, shortest, noSurrogate⟩ := (secondOfThree_iff lead second).mp followed
  obtain ⟨lowThird, highThird⟩ := (isContinuation_iff third).mp continued
  rw [payload, payload, encodeChar, toNat_ofNat (by omega), if_neg (by omega), if_neg (by omega),
    if_pos (by omega), ofNat_eq lead (by omega), ofNat_eq second (by omega),
    ofNat_eq third (by omega)]

theorem encodeChar_four {lead second third fourth : UInt8} (lower : 0xF0 ≤ lead.toNat)
    (upper : lead.toNat ≤ 0xF4) (followed : secondOfFour lead second = true)
    (continued : isContinuation third = true) (ended : isContinuation fourth = true) :
    encodeChar (Char.ofNat (262144 * (lead.toNat % 8) + 4096 * payload second +
      64 * payload third + payload fourth)) = [lead, second, third, fourth] := by
  obtain ⟨low, high, shortest, bounded⟩ := (secondOfFour_iff lead second).mp followed
  obtain ⟨lowThird, highThird⟩ := (isContinuation_iff third).mp continued
  obtain ⟨lowFourth, highFourth⟩ := (isContinuation_iff fourth).mp ended
  rw [payload, payload, payload, encodeChar, toNat_ofNat (by omega), if_neg (by omega),
    if_neg (by omega), if_neg (by omega), ofNat_eq lead (by omega), ofNat_eq second (by omega),
    ofNat_eq third (by omega), ofNat_eq fourth (by omega)]

/-- By the cases of a step; those of an ill-formed sequence give no character. -/
theorem encodeChar_of_step {lead : UInt8} {rest : Bytes} {c : Char} {taken : Nat} :
    step lead rest = (some c, taken) → encodeChar c = lead :: rest.take taken := by
  fun_cases step lead rest <;> intro stepped <;> cases stepped
  case case1 single => exact encodeChar_one single
  case case2 _ range second _ continued =>
    simp only [Bool.and_eq_true, decide_eq_true_eq] at range
    exact encodeChar_two range.1 range.2 continued
  case case5 _ _ range second followed third _ continued =>
    simp only [Bool.and_eq_true, decide_eq_true_eq] at range
    exact encodeChar_three range.1 range.2 followed continued
  case case10 _ _ _ range second followed third continued fourth _ ended =>
    simp only [Bool.and_eq_true, decide_eq_true_eq] at range
    exact encodeChar_four range.1 range.2 followed continued ended

theorem decode?_nil : decode? [] = some [] := by
  rw [decode?, steps, List.mapM_nil]
  rfl

theorem decode?_cons (lead : UInt8) (rest : Bytes) :
    decode? (lead :: rest) = (step lead rest).1.bind fun c =>
      (decode? (rest.drop (step lead rest).2)).map (c :: ·) := by
  cases stepped : (step lead rest).1 with
  | none => exact decode?_of_steps_none (by rw [steps_cons, stepped])
  | some c => exact decode?_of_steps (by rw [steps_cons, stepped])

/-- Strict decoding accepts UTF-8, and nothing else. -/
theorem decode?_eq_some_iff (bytes : Bytes) (text : List Char) :
    decode? bytes = some text ↔ bytes = encode text := by
  constructor
  · intro decoded
    induction text generalizing bytes with
    | nil =>
        cases bytes with
        | nil => rfl
        | cons lead rest =>
            rw [decode?_cons, Option.bind_eq_some_iff] at decoded
            obtain ⟨c, _, decoded⟩ := decoded
            obtain ⟨_, _, impossible⟩ := Option.map_eq_some_iff.mp decoded
            cases impossible
    | cons c text ih =>
        cases bytes with
        | nil =>
            rw [decode?_nil] at decoded
            cases decoded
        | cons lead rest =>
            rw [decode?_cons, Option.bind_eq_some_iff] at decoded
            obtain ⟨d, first, decoded⟩ := decoded
            obtain ⟨later, behind, joined⟩ := Option.map_eq_some_iff.mp decoded
            obtain ⟨rfl, rfl⟩ := List.cons.inj joined
            have written : encodeChar d = lead :: rest.take (step lead rest).2 :=
              encodeChar_of_step (Prod.ext first rfl)
            have split : encode (d :: later) = encodeChar d ++ encode later := rfl
            rw [split, written, ← ih _ behind, List.cons_append, List.take_append_drop]
  · rintro rfl
    have whole := decode?_encode_append text []
    rwa [List.append_nil, decode?_nil, Option.map_some, List.append_nil] at whole

end Utf8

namespace ModifiedUtf8

/-- UTF-8 without a character of four bytes. -/
structure IsNarrow (bytes : Bytes) : Prop where
  valid : ∃ text : String, bytes = utf8Bytes text
  /-- No byte leads a group of four. -/
  narrow : ∀ byte ∈ bytes, byte < 0xF0

theorem toNat_lt_of_narrow {c : Char} (narrow : ∀ byte ∈ Utf8.encodeChar c, byte < 0xF0) :
    c.toNat < 0x10000 := by
  apply Nat.lt_of_not_le
  intro wide
  obtain ⟨lead, _, _, _, written, first, _⟩ := Utf8.exists_four_bytes wide
  rw [written] at narrow
  have below := UInt8.lt_iff_toNat_lt.mp (narrow lead List.mem_cons_self)
  simp only [UInt8.reduceToNat] at below
  omega

theorem IsNarrow.exists_text {bytes : Bytes} (narrow : IsNarrow bytes) :
    ∃ text : String, bytes = utf8Bytes text ∧ bytes = Utf8.encode text.toList ∧
      ∀ c ∈ text.toList, c.toNat < 0x10000 := by
  obtain ⟨⟨text, rfl⟩, short⟩ := narrow
  rw [← Utf8.encode_toList] at short ⊢
  refine ⟨text, Utf8.encode_toList text, rfl, ?_⟩
  intro c among
  apply toNat_lt_of_narrow
  intro byte within
  exact short byte (List.mem_flatMap.mpr ⟨c, among, within⟩)

/-! Read group by group, each character is its unit; the zero is one byte here and no group of two,
but is read all the same. -/

theorem units_encodeChar_append {c : Char} (narrow : c.toNat < 0x10000) (rest : Bytes) :
    units (Utf8.encodeChar c ++ rest) = Utf16.encodeChar c ++ units rest := by
  have single : Utf16.encodeChar c = [UInt16.ofNat c.toNat] := if_pos narrow
  rw [single]
  by_cases positive : 0 < c.toNat
  · rw [Utf8.encodeChar_eq_encodeUnit positive narrow, units_encodeUnit_append]
    rfl
  · have zero : c.toNat = 0 := by omega
    rw [Utf8.encodeChar_zero zero, zero, List.singleton_append,
      units_cons_one 0 rest (by decide)]
    rfl

theorem units_encode_append {text : List Char} (narrow : ∀ c ∈ text, c.toNat < 0x10000)
    (rest : Bytes) : units (Utf8.encode text ++ rest) = Utf16.encode text ++ units rest := by
  induction text with
  | nil => rfl
  | cons c text ih =>
      change units (Utf8.encodeChar c ++ Utf8.encode text ++ rest) =
        Utf16.encodeChar c ++ Utf16.encode text ++ units rest
      rw [List.append_assoc, units_encodeChar_append (narrow c List.mem_cons_self),
        ih fun d among => narrow d (List.mem_cons_of_mem c among), List.append_assoc]

theorem decodeGroups_encode_append {text : List Char} (narrow : ∀ c ∈ text, c.toNat < 0x10000)
    (rest : Bytes) : decodeGroups (Utf8.encode text ++ rest) = text ++ decodeGroups rest := by
  rw [decodeGroups, units_encode_append narrow, Utf16.decodeLossy_encode_append]
  rfl

theorem decodeGroups_zero (rest : Bytes) :
    decodeGroups (0xC0 :: 0x80 :: rest) = '\x00' :: decodeGroups rest := by
  have zero : unitOfTwo 0xC0 0x80 = 0 := by decide
  rw [decodeGroups, units_cons_two 0xC0 0x80 rest (by decide) (by decide), zero,
    Utf16.decodeLossy_cons_of_plain 0 _ (by decide) (by decide)]
  rfl

theorem decode_of_utf8 {bytes : Bytes} {text : List Char}
    (decoded : Utf8.decode? bytes = some text) : decode bytes = String.ofList text := by
  rw [decode, decodeChars, decoded]

theorem decode_utf8Encode (text : List Char) : decode (Utf8.encode text) = String.ofList text :=
  decode_of_utf8 ((Utf8.decode?_eq_some_iff _ _).mpr rfl)

theorem decode_of_foreign {bytes : Bytes} (foreign : Utf8.decode? bytes = none) :
    decode bytes = String.ofList (decodeGroups bytes) := by
  rw [decode, decodeChars, foreign]

theorem IsNarrow.exists_reading {bytes : Bytes} (narrow : IsNarrow bytes) :
    ∃ text : String, bytes = utf8Bytes text ∧ Utf8.decode? bytes = some text.toList ∧
      decodeGroups bytes = text.toList := by
  obtain ⟨text, same, written, short⟩ := narrow.exists_text
  have grouped := decodeGroups_encode_append short []
  rw [List.append_nil, ← written] at grouped
  refine ⟨text, same, (Utf8.decode?_eq_some_iff bytes text.toList).mpr written, ?_⟩
  rw [grouped]
  exact List.append_nil _

/-- UTF-8 without characters of four bytes is read as its text, at one go or group by group; and two
such texts with a zero in two bytes between them, which together are no UTF-8, are read as what they
are by themselves, with the zero between them. -/
theorem readings_agree {front back : Bytes} (frontNarrow : IsNarrow front)
    (backNarrow : IsNarrow back) :
    (∃ text : String, front = utf8Bytes text ∧ Utf8.decode? front = some text.toList ∧
      decodeGroups front = text.toList) ∧
    Utf8.decode? (front ++ [0xC0, 0x80] ++ back) = none ∧
    decode (front ++ [0xC0, 0x80] ++ back) = decode front ++ "\x00" ++ decode back := by
  obtain ⟨text, _, written, short⟩ := frontNarrow.exists_text
  obtain ⟨_, _, decodedBack, grouped⟩ := backNarrow.exists_reading
  have decodedFront := (Utf8.decode?_eq_some_iff front text.toList).mpr written
  have stray : Utf8.decode? (0xC0 :: 0x80 :: back) = none := by
    rw [Utf8.decode?_cons, Utf8.step_overlong 0xC0 _ (by decide) (by decide)]
    rfl
  have foreign : Utf8.decode? (front ++ [0xC0, 0x80] ++ back) = none := by
    rw [List.append_assoc, written, Utf8.decode?_encode_append]
    exact congrArg _ stray
  have whole : decodeGroups (front ++ [0xC0, 0x80] ++ back) =
      text.toList ++ (['\x00'] ++ decodeGroups back) := by
    rw [List.append_assoc, written, decodeGroups_encode_append short]
    exact congrArg _ (decodeGroups_zero back)
  refine ⟨frontNarrow.exists_reading, foreign, ?_⟩
  rw [decode_of_foreign foreign, whole, decode_of_utf8 decodedFront, decode_of_utf8 decodedBack,
    grouped, String.ofList_append, String.ofList_append, String.append_assoc]

/-- A zero in one byte, a zero in two, and characters of one to three bytes around them. -/
theorem readings_agree_specimen :
    IsNarrow [0x61, 0xC3, 0xA9, 0x00] ∧ IsNarrow [0xE2, 0x82, 0xAC] ∧
      decode ([0x61, 0xC3, 0xA9, 0x00] ++ [0xC0, 0x80] ++ [0xE2, 0x82, 0xAC]) =
        "aé\x00\x00€" := by
  have front : IsNarrow [0x61, 0xC3, 0xA9, 0x00] := ⟨⟨"aé\x00", by decide⟩, by simp⟩
  have back : IsNarrow [0xE2, 0x82, 0xAC] := ⟨⟨"€", by decide⟩, by simp⟩
  refine ⟨front, back, (readings_agree front back).2.2.trans ?_⟩
  decide +kernel

end ModifiedUtf8

end Classpath.Text
