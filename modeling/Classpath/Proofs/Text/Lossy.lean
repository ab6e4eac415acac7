import Classpath.Proofs.Text.Utf8

/-!
What stays of bytes that are shown as a text. A byte below 80 hexadecimal is its character wherever
it stands, and its character comes from nowhere else; so bytes are shown piece by piece between
slashes, and end in a suffix such as that of classes if and only if what is shown does.

Main statements: `steps_append_single`, `exists_split_of_steps` and `suffix_decodeLossy_iff`.
-/

set_option autoImplicit false

namespace Classpath.Text.Utf8

theorem decodeLossy_encode (text : List Char) : decodeLossy (encode text) = text := by
  have read : steps (encode text) = text.map some := by
    induction text with
    | nil => rw [encode, List.flatMap_nil, steps, List.map_nil]
    | cons c text ih =>
        change steps (encodeChar c ++ encode text) = _
        rw [steps_encodeChar_append, ih, List.map_cons]
  rw [decodeLossy, read, List.map_map]
  exact List.map_id text

theorem toNat_ofNat_single {c : Char} (single : c.toNat < 0x80) :
    (UInt8.ofNat c.toNat).toNat = c.toNat :=
  UInt8.toNat_ofNat_of_lt' (Nat.lt_trans single (by decide))

theorem ofNat_single_lt {c : Char} (single : c.toNat < 0x80) : UInt8.ofNat c.toNat < 0x80 := by
  rw [UInt8.lt_iff_toNat_lt, toNat_ofNat_single single]
  exact single

section Single

variable {byte : UInt8} (single : byte < 0x80)
include single

theorem isContinuation_single : isContinuation byte = false := by
  rw [Bool.eq_false_iff, ne_eq, isContinuation_iff]
  have below := UInt8.lt_iff_toNat_lt.mp single
  simp only [UInt8.reduceToNat] at below
  omega

theorem secondOfThree_single (lead : UInt8) : secondOfThree lead byte = false := by
  rw [Bool.eq_false_iff, ne_eq, secondOfThree_iff]
  have below := UInt8.lt_iff_toNat_lt.mp single
  simp only [UInt8.reduceToNat] at below
  omega

theorem secondOfFour_single (lead : UInt8) : secondOfFour lead byte = false := by
  rw [Bool.eq_false_iff, ne_eq, secondOfFour_iff]
  have below := UInt8.lt_iff_toNat_lt.mp single
  simp only [UInt8.reduceToNat] at below
  omega

/-- Such a byte ends a sequence as the end of the bytes does. -/
theorem step_append_single (lead : UInt8) (front back : Bytes) :
    step lead (front ++ byte :: back) = step lead front := by
  have stops := isContinuation_single single
  have three := secondOfThree_single single lead
  have four := secondOfFour_single single lead
  match front with
  | [] => simp [step, stops, three, four]
  | [second] => simp [step, stops]
  | [second, third] => simp [step, stops]
  | second :: third :: fourth :: rest => simp [step]

end Single

theorem step_taken_le (lead : UInt8) (rest : Bytes) : (step lead rest).2 ≤ rest.length := by
  fun_cases step lead rest <;> simp

/-- By induction on how many bytes are in front: a step takes none but of these. -/
theorem steps_append_single {byte : UInt8} (single : byte < 0x80) (front back : Bytes) :
    steps (front ++ byte :: back) = steps front ++ some (Char.ofNat byte.toNat) :: steps back := by
  induction sized : front.length using Nat.strongRecOn generalizing front with
  | _ size ih =>
      cases front with
      | nil =>
          have taken := step_one byte back (by simpa [UInt8.lt_iff_toNat_lt] using single)
          rw [List.nil_append, steps_cons, taken]
          simp [steps]
      | cons lead rest =>
          have inside := step_taken_le lead rest
          have fewer : (rest.drop (step lead rest).2).length < size := by
            rw [List.length_drop, ← sized, List.length_cons]
            omega
          rw [List.cons_append, steps_cons, step_append_single single,
            List.drop_append_of_le_length inside, ih _ fewer _ rfl, steps_cons lead rest]
          rfl

theorem decodeLossy_append_single {byte : UInt8} (single : byte < 0x80) (front back : Bytes) :
    decodeLossy (front ++ byte :: back) =
      decodeLossy front ++ Char.ofNat byte.toNat :: decodeLossy back := by
  rw [decodeLossy, steps_append_single single, List.map_append, List.map_cons]
  rfl

/-- A character of one byte is read where that byte stands. By induction on what is read in front of
it, a step at a time. -/
theorem exists_split_of_steps {c : Char} (single : c.toNat < 0x80) {front back : List (Option Char)}
    {bytes : Bytes} (read : steps bytes = front ++ some c :: back) :
    ∃ before after, bytes = before ++ UInt8.ofNat c.toNat :: after ∧ steps before = front ∧
      steps after = back := by
  induction front generalizing bytes with
  | nil =>
      cases bytes with
      | nil =>
          rw [steps] at read
          cases read
      | cons lead rest =>
          rw [steps_cons, List.nil_append] at read
          obtain ⟨first, later⟩ := List.cons.inj read
          have written : encodeChar c = lead :: rest.take (step lead rest).2 :=
            encodeChar_of_step (Prod.ext first rfl)
          rw [encodeChar, if_pos single] at written
          obtain ⟨same, none⟩ := List.cons.inj written
          have whole := List.take_append_drop (step lead rest).2 rest
          rw [← none, List.nil_append] at whole
          exact ⟨[], rest, by rw [same, List.nil_append], by rw [steps], by rw [← later, whole]⟩
  | cons read₀ front ih =>
      cases bytes with
      | nil =>
          rw [steps] at read
          cases read
      | cons lead rest =>
          rw [steps_cons, List.cons_append] at read
          obtain ⟨first, later⟩ := List.cons.inj read
          obtain ⟨before, after, split, readBefore, readAfter⟩ := ih later
          have inside := step_taken_le lead rest
          have whole : rest = rest.take (step lead rest).2 ++ before ++
              UInt8.ofNat c.toNat :: after := by
            rw [List.append_assoc, ← split, List.take_append_drop]
          have stepped : step lead (rest.take (step lead rest).2 ++ before) = step lead rest := by
            have same := step_append_single (ofNat_single_lt single) lead
              (rest.take (step lead rest).2 ++ before) after
            rw [← whole] at same
            exact same.symm
          refine ⟨lead :: (rest.take (step lead rest).2 ++ before), after, ?_, ?_, readAfter⟩
          · rw [List.cons_append, ← whole]
          · have taken : (rest.take (step lead rest).2).length = (step lead rest).2 :=
              List.length_take_of_le inside
            rw [steps_cons, stepped, first, List.drop_append_of_le_length taken.ge,
              List.drop_of_length_le taken.le, List.nil_append, readBefore]

theorem getD_eq_iff {c : Char} (single : c.toNat < 0x80) (read : Option Char) :
    read.getD replacement = c ↔ read = some c := by
  cases read with
  | none =>
      have mark : replacement ≠ c := by
        rintro rfl
        exact absurd single (by decide)
      simp [mark]
  | some other => simp

/-- The same of what is shown. -/
theorem exists_split_of_decodeLossy {c : Char} (single : c.toNat < 0x80) {front back : List Char}
    {bytes : Bytes} (shown : decodeLossy bytes = front ++ c :: back) :
    ∃ before after, bytes = before ++ UInt8.ofNat c.toNat :: after ∧
      decodeLossy before = front ∧ decodeLossy after = back := by
  obtain ⟨first, rest, split, readFirst, readRest⟩ := List.map_eq_append_iff.mp shown
  obtain ⟨middle, later, rfl, readMiddle, readLater⟩ := List.map_eq_cons_iff.mp readRest
  rw [(getD_eq_iff single middle).mp readMiddle] at split
  obtain ⟨before, after, whole, readBefore, readAfter⟩ := exists_split_of_steps single split
  refine ⟨before, after, whole, ?_, ?_⟩
  · rw [decodeLossy, readBefore, readFirst]
  · rw [decodeLossy, readAfter, readLater]

theorem mem_decodeLossy_iff {byte : UInt8} (single : byte < 0x80) (bytes : Bytes) :
    Char.ofNat byte.toNat ∈ decodeLossy bytes ↔ byte ∈ bytes := by
  have below := UInt8.lt_iff_toNat_lt.mp single
  simp only [UInt8.reduceToNat] at below
  have known : (Char.ofNat byte.toNat).toNat = byte.toNat := toNat_ofNat (by omega)
  constructor
  · intro among
    obtain ⟨front, back, shown⟩ := List.append_of_mem among
    obtain ⟨before, after, whole, _⟩ := exists_split_of_decodeLossy (by omega) shown
    rw [known, UInt8.ofNat_toNat] at whole
    rw [whole]
    exact List.mem_append_right before List.mem_cons_self
  · intro among
    obtain ⟨before, after, rfl⟩ := List.append_of_mem among
    rw [decodeLossy_append_single single]
    exact List.mem_append_right _ List.mem_cons_self

/-- What is shown as characters of one byte each is these bytes. -/
theorem decodeLossy_eq_iff {text : List Char} (single : ∀ c ∈ text, c.toNat < 0x80)
    (bytes : Bytes) : decodeLossy bytes = text ↔ bytes = encode text := by
  constructor
  · intro shown
    induction text generalizing bytes with
    | nil =>
        cases bytes with
        | nil => rfl
        | cons lead rest =>
            rw [decodeLossy, steps_cons] at shown
            cases shown
    | cons c text ih =>
        have first := single c List.mem_cons_self
        have split : decodeLossy bytes = [] ++ c :: text := shown
        obtain ⟨before, after, rfl, none, behind⟩ := exists_split_of_decodeLossy first split
        have nothing : before = [] := by
          cases before with
          | nil => rfl
          | cons lead rest =>
              rw [decodeLossy, steps_cons] at none
              cases none
        have rest := ih (fun d among => single d (List.mem_cons_of_mem c among)) after behind
        have written : encode (c :: text) = encodeChar c ++ encode text := rfl
        rw [nothing, rest, written, encodeChar, if_pos first]
        rfl
  · rintro rfl
    exact decodeLossy_encode text

/-- Bytes end in those of a suffix of characters of one byte if and only if what is shown of them
ends in the suffix. -/
theorem suffix_decodeLossy_iff {tail : List Char} (single : ∀ c ∈ tail, c.toNat < 0x80)
    (bytes : Bytes) : tail <:+ decodeLossy bytes ↔ encode tail <:+ bytes := by
  cases tail with
  | nil => simp [encode]
  | cons c rest =>
      have first := single c List.mem_cons_self
      have later : ∀ d ∈ rest, d.toNat < 0x80 :=
        fun d among => single d (List.mem_cons_of_mem c among)
      have written : encode (c :: rest) = UInt8.ofNat c.toNat :: encode rest := by
        change encodeChar c ++ encode rest = _
        rw [encodeChar, if_pos first]
        rfl
      rw [written]
      constructor
      · rintro ⟨front, shown⟩
        obtain ⟨before, after, rfl, _, behind⟩ := exists_split_of_decodeLossy first shown.symm
        rw [(decodeLossy_eq_iff later after).mp behind]
        exact List.suffix_append before _
      · rintro ⟨front, rfl⟩
        rw [decodeLossy_append_single (ofNat_single_lt first), decodeLossy_encode,
          toNat_ofNat_single first, Char.ofNat_toNat]
        exact List.suffix_append _ _

end Classpath.Text.Utf8
