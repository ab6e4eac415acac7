import Classpath.ClassFile.Pool
import Classpath.Proofs.ClassFile.Layout

/-!
Constant pools against their layout: what is read is exactly what some layout spells, a constant is
found at the place where it starts, and stepping over a pool leads behind it.
-/

set_option autoImplicit false

namespace Classpath

namespace RawConstant

def tag (raw : RawConstant) : UInt8 := raw.decoded.tag

/-- What is written behind the tag. -/
def body : RawConstant → Bytes
  | text payload _ => bigEndianBytes 2 payload.length ++ payload
  | other constant _ => constant.body

theorem encode_eq (raw : RawConstant) : raw.encode = [raw.tag] ++ raw.body := by
  cases raw <;> rfl

/-- The length of a text fits in its two bytes. -/
theorem toNat_length (payload : Bytes) (fits : payload.length < 65536) :
    (UInt16.ofNat payload.length).toNat = payload.length :=
  UInt16.toNat_ofNat_of_lt' fits

end RawConstant

namespace Constant

theorem slots_eq (constant : Constant) : constant.slots = 1 ∨ constant.slots = 2 := by
  unfold slots
  split
  · exact Or.inr rfl
  · exact Or.inr rfl
  · exact Or.inl rfl

theorem reads_text :
    Reads (do
      let length ← Read.u16
      return utf8 (Text.ModifiedUtf8.decode (← Read.slice length.toNat)))
      (fun constant taken => ∃ (payload : Bytes) (fits : payload.length < 65536),
        constant = (RawConstant.text payload fits).decoded ∧
          taken = (RawConstant.text payload fits).body) := by
  refine (Reads.u16.bind fun length => (Reads.slice length.toNat).bind_pure fun payload =>
    utf8 (Text.ModifiedUtf8.decode payload)).congr fun constant taken => ?_
  constructor
  · rintro ⟨length, _, _, rfl, ⟨payload, ⟨rfl, sized⟩, rfl⟩, rfl⟩
    refine ⟨payload, by rw [sized]; exact length.toNat_lt, rfl, ?_⟩
    rw [RawConstant.body, sized]
  · rintro ⟨payload, fits, rfl, rfl⟩
    have sized := RawConstant.toNat_length payload fits
    refine ⟨UInt16.ofNat payload.length, _, payload, rfl, ⟨payload, ⟨rfl, sized.symm⟩, rfl⟩, ?_⟩
    rw [RawConstant.body, sized]

/-- The body of a constant is read back, one reader for each kind. -/
theorem readBody_body (raw : RawConstant) (index : UInt16) (position : Nat) (rest : Bytes) :
    readBody raw.tag index ⟨position, raw.body ++ rest⟩ =
      .ok raw.decoded ⟨position + raw.body.length, rest⟩ := by
  cases raw with
  | text payload fits => exact reads_text.eval ⟨payload, fits, rfl, rfl⟩ position rest
  | other constant plain =>
      cases constant with
      | utf8 text => exact absurd rfl (plain text)
      | integer value => exact (Reads.i32.bind_pure integer).eval ⟨value, rfl, rfl⟩ _ _
      | float bits => exact (Reads.u32.bind_pure float).eval ⟨bits, rfl, rfl⟩ _ _
      | long value => exact (Reads.i64.bind_pure long).eval ⟨value, rfl, rfl⟩ _ _
      | double bits => exact (Reads.u64.bind_pure double).eval ⟨bits, rfl, rfl⟩ _ _
      | classRef name => exact (Reads.u16.bind_pure classRef).eval ⟨name, rfl, rfl⟩ _ _
      | stringRef text => exact (Reads.u16.bind_pure stringRef).eval ⟨text, rfl, rfl⟩ _ _
      | fieldRef owner member => exact (Reads.pair fieldRef).eval ⟨owner, member, rfl, rfl⟩ _ _
      | methodRef owner member => exact (Reads.pair methodRef).eval ⟨owner, member, rfl, rfl⟩ _ _
      | interfaceMethodRef owner member =>
          exact (Reads.pair interfaceMethodRef).eval ⟨owner, member, rfl, rfl⟩ _ _
      | nameAndType name descriptor =>
          exact (Reads.pair nameAndType).eval ⟨name, descriptor, rfl, rfl⟩ _ _
      | methodHandle kind reference =>
          exact (Reads.u8.bind fun kind => Reads.u16.bind_pure (methodHandle kind)).eval
            ⟨kind, [kind], _, rfl, ⟨reference, rfl, rfl⟩, rfl⟩ _ _
      | methodType descriptor => exact (Reads.u16.bind_pure methodType).eval ⟨_, rfl, rfl⟩ _ _
      | dynamic bootstrap member =>
          exact (Reads.pair dynamic).eval ⟨bootstrap, member, rfl, rfl⟩ _ _
      | invokeDynamic bootstrap member =>
          exact (Reads.pair invokeDynamic).eval ⟨bootstrap, member, rfl, rfl⟩ _ _
      | moduleRef name => exact (Reads.u16.bind_pure moduleRef).eval ⟨name, rfl, rfl⟩ _ _
      | packageRef name => exact (Reads.u16.bind_pure packageRef).eval ⟨name, rfl, rfl⟩ _ _

/-- A body that is read is one that a constant of the tag has. -/
def ReadsBodyOf (tag : UInt8) (read : Read Constant) : Prop :=
  ∀ cursor constant after, read cursor = .ok constant after → ∃ raw : RawConstant,
    raw.tag = tag ∧ raw.decoded = constant ∧ cursor.rest = raw.body ++ after.rest ∧
      after.position = cursor.position + raw.body.length

theorem readsBodyOf_of_reads {read : Read Constant} {spells : Constant → Bytes → Prop}
    {tag : UInt8} (reads : Reads read spells)
    (named : ∀ constant taken, spells constant taken → ∃ raw : RawConstant,
      raw.tag = tag ∧ raw.decoded = constant ∧ raw.body = taken) : ReadsBodyOf tag read := by
  intro cursor constant after ran
  obtain ⟨_, spelled, rest, position⟩ := (reads _ _ _).mp ran
  obtain ⟨raw, tagged, decoded, rfl⟩ := named _ _ spelled
  exact ⟨raw, tagged, decoded, rest, position⟩

theorem readsBodyOf_word (tag : UInt8) (make : UInt16 → Constant)
    (plain : ∀ index text, make index ≠ .utf8 text) (tagged : ∀ index, (make index).tag = tag)
    (body : ∀ index, (make index).body = bigEndianBytes 2 index.toNat) :
    ReadsBodyOf tag (do return make (← Read.u16)) := by
  apply readsBodyOf_of_reads (Reads.u16.bind_pure make)
  rintro constant taken ⟨index, rfl, rfl⟩
  exact ⟨.other (make index) (plain index), tagged index, rfl, body index⟩

theorem readsBodyOf_pair (tag : UInt8) (make : UInt16 → UInt16 → Constant)
    (plain : ∀ first second text, make first second ≠ .utf8 text)
    (tagged : ∀ first second, (make first second).tag = tag)
    (body : ∀ first second, (make first second).body =
      bigEndianBytes 2 first.toNat ++ bigEndianBytes 2 second.toNat) :
    ReadsBodyOf tag (do return make (← Read.u16) (← Read.u16)) := by
  apply readsBodyOf_of_reads (Reads.pair make)
  rintro constant taken ⟨first, second, rfl, rfl⟩
  exact ⟨.other (make first second) (plain first second), tagged first second, rfl,
    body first second⟩

/-- Nothing else is read as the body of a constant. -/
theorem readsBodyOf_readBody (tag : UInt8) (index : UInt16) :
    ReadsBodyOf tag (readBody tag index) := by
  unfold readBody
  split
  · apply readsBodyOf_of_reads reads_text
    rintro constant taken ⟨payload, fits, rfl, rfl⟩
    exact ⟨.text payload fits, rfl, rfl, rfl⟩
  · apply readsBodyOf_of_reads (Reads.i32.bind_pure integer)
    rintro constant taken ⟨value, rfl, rfl⟩
    exact ⟨.other (integer value) nofun, rfl, rfl, rfl⟩
  · apply readsBodyOf_of_reads (Reads.u32.bind_pure float)
    rintro constant taken ⟨bits, rfl, rfl⟩
    exact ⟨.other (float bits) nofun, rfl, rfl, rfl⟩
  · apply readsBodyOf_of_reads (Reads.i64.bind_pure long)
    rintro constant taken ⟨value, rfl, rfl⟩
    exact ⟨.other (long value) nofun, rfl, rfl, rfl⟩
  · apply readsBodyOf_of_reads (Reads.u64.bind_pure double)
    rintro constant taken ⟨bits, rfl, rfl⟩
    exact ⟨.other (double bits) nofun, rfl, rfl, rfl⟩
  · exact readsBodyOf_word 7 classRef nofun (fun _ => rfl) fun _ => rfl
  · exact readsBodyOf_word 8 stringRef nofun (fun _ => rfl) fun _ => rfl
  · exact readsBodyOf_pair 9 fieldRef nofun (fun _ _ => rfl) fun _ _ => rfl
  · exact readsBodyOf_pair 10 methodRef nofun (fun _ _ => rfl) fun _ _ => rfl
  · exact readsBodyOf_pair 11 interfaceMethodRef nofun (fun _ _ => rfl) fun _ _ => rfl
  · exact readsBodyOf_pair 12 nameAndType nofun (fun _ _ => rfl) fun _ _ => rfl
  · apply readsBodyOf_of_reads
      (Reads.u8.bind fun kind => Reads.u16.bind_pure (methodHandle kind))
    rintro constant taken ⟨kind, _, _, rfl, ⟨reference, rfl, rfl⟩, rfl⟩
    exact ⟨.other (methodHandle kind reference) nofun, rfl, rfl, rfl⟩
  · exact readsBodyOf_word 16 methodType nofun (fun _ => rfl) fun _ => rfl
  · exact readsBodyOf_pair 17 dynamic nofun (fun _ _ => rfl) fun _ _ => rfl
  · exact readsBodyOf_pair 18 invokeDynamic nofun (fun _ _ => rfl) fun _ _ => rfl
  · exact readsBodyOf_word 19 moduleRef nofun (fun _ => rfl) fun _ => rfl
  · exact readsBodyOf_word 20 packageRef nofun (fun _ => rfl) fun _ => rfl
  · intro cursor constant after ran
    cases ran

/-- A constant is read exactly from the ways to write it. -/
theorem reads (index : UInt16) : Reads (read index) (fun constant taken => ∃ raw : RawConstant,
    raw.decoded = constant ∧ taken = raw.encode) := by
  apply Reads.intro
  · rintro _ _ ⟨raw, rfl, rfl⟩ position rest
    rw [read, raw.encode_eq, List.append_assoc]
    refine (Reads.bind_eq_ok _ _ _ _ _).mpr
      ⟨raw.tag, ⟨position + 1, raw.body ++ rest⟩, Reads.u8.eval rfl _ _, ?_⟩
    rw [readBody_body raw index, List.length_append, List.length_singleton, Nat.add_assoc]
  · intro cursor constant after ran
    obtain ⟨tag, between, ranTag, ranBody⟩ := (Reads.bind_eq_ok _ _ _ _ _).mp ran
    obtain ⟨_, rfl, tagRest, tagPosition⟩ := (Reads.u8 _ _ _).mp ranTag
    obtain ⟨raw, rfl, decoded, rest, position⟩ := readsBodyOf_readBody _ _ _ _ _ ranBody
    refine ⟨raw.encode, ⟨raw, decoded, rfl⟩, ?_, ?_⟩
    · rw [tagRest, rest, raw.encode_eq, List.append_assoc]
    · rw [position, tagPosition, raw.encode_eq, List.length_append, Nat.add_assoc]

end Constant

namespace RawPool

/-- The table that constants make: each behind the one before it, a constant of two places
followed by an empty one unless it is the last. -/
def laidOut (count : Nat) : Nat → List RawConstant → List (Option Constant)
  | _, [] => []
  | index, raw :: rest =>
      some raw.decoded ::
        ((if raw.slots = 2 ∧ index + 1 < count then [none] else []) ++
          laidOut count (index + raw.slots) rest)

/-- The pool that is read from a layout. -/
def pool (raw : RawPool) : Pool := ⟨(none :: laidOut raw.count.toNat 1 raw.constants).toArray⟩

end RawPool

namespace Pool

/-- Behind the greatest index there is no place below a count, whether it is reached or passed. -/
theorem fills_advance (count index : UInt16) (slots : Nat) (constants : List RawConstant) :
    Fills count.toNat (advance index slots).toNat constants ↔
      Fills count.toNat (index.toNat + slots) constants := by
  have bounded := count.toNat_lt
  have advanced := toNat_advance index slots
  cases constants with
  | nil =>
      change count.toNat ≤ (advance index slots).toNat ↔ count.toNat ≤ index.toNat + slots
      omega
  | cons raw rest =>
      have inside (place : Nat) (room : place < count.toNat) : place ≤ 65535 := by omega
      constructor
      · intro filled
        have small : (advance index slots).toNat = index.toNat + slots := by
          have room := filled.1
          omega
        exact small ▸ filled
      · intro filled
        have small : (advance index slots).toNat = index.toNat + slots := by
          have room := filled.1
          omega
        exact small ▸ filled

theorem laidOut_advance (count index : UInt16) (slots : Nat) (constants : List RawConstant)
    (filled : Fills count.toNat (index.toNat + slots) constants) :
    RawPool.laidOut count.toNat (advance index slots).toNat constants =
      RawPool.laidOut count.toNat (index.toNat + slots) constants := by
  cases constants with
  | nil => rfl
  | cons raw rest =>
      have room := filled.1
      have bounded := count.toNat_lt
      have advanced := toNat_advance index slots
      have small : (advance index slots).toNat = index.toNat + slots := by omega
      rw [small]

/-- Below a count there is always a next index. -/
theorem add_one_lt_iff {count index : UInt16} (room : index < count) :
    index + 1 < count ↔ index.toNat + 1 < count.toNat := by
  have below := UInt16.lt_iff_toNat_lt.mp room
  have bounded := count.toNat_lt
  have next : (index + 1).toNat = index.toNat + 1 := by
    rw [UInt16.toNat_add]
    exact Nat.mod_eq_of_lt (by have one : (1 : UInt16).toNat = 1 := rfl; omega)
  rw [UInt16.lt_iff_toNat_lt, next]

/-- Constants are read from place `index` on exactly if they fill the places up to the count. -/
theorem reads_from (count index : UInt16) (entries : Array (Option Constant)) :
    Reads (readFrom count index entries) (fun table taken => ∃ constants,
      Fills count.toNat index.toNat constants ∧ taken = constants.flatMap RawConstant.encode ∧
        table = entries ++ (RawPool.laidOut count.toNat index.toNat constants).toArray) := by
  induction index, entries using Pool.readFrom.induct count with
  | case1 index entries room ihWide ihNarrow =>
      have below := UInt16.lt_iff_toNat_lt.mp room
      have behind (constant : Constant) :
          Reads (if constant.slots = 2 ∧ index + 1 < count then
              readFrom count (advance index constant.slots) ((entries.push (some constant)).push none)
            else readFrom count (advance index constant.slots) (entries.push (some constant)))
            (fun table taken => ∃ constants,
              Fills count.toNat (index.toNat + constant.slots) constants ∧
              taken = constants.flatMap RawConstant.encode ∧
                table = entries ++ (some constant ::
                  ((if constant.slots = 2 ∧ index.toNat + 1 < count.toNat then [none] else []) ++
                    RawPool.laidOut count.toNat (index.toNat + constant.slots)
                      constants)).toArray) := by
        simp only [add_one_lt_iff room]
        split
        · refine (ihWide constant).congr fun table taken => exists_congr fun constants => ?_
          rw [fills_advance]
          refine and_congr_right fun filled => ?_
          rw [laidOut_advance _ _ _ _ filled]
          simp
        · refine (ihNarrow constant).congr fun table taken => exists_congr fun constants => ?_
          rw [fills_advance]
          refine and_congr_right fun filled => ?_
          rw [laidOut_advance _ _ _ _ filled]
          simp
      rw [readFrom, if_pos room]
      refine (((Constant.reads index).during _).bind behind).congr fun table taken => ?_
      constructor
      · rintro ⟨_, _, _, ⟨raw, rfl, rfl⟩, ⟨constants, filled, rfl, rfl⟩, rfl⟩
        exact ⟨raw :: constants, ⟨below, filled⟩, rfl, rfl⟩
      · rintro ⟨constants, filled, rfl, rfl⟩
        cases constants with
        | nil => exact absurd below (Nat.not_lt_of_le filled)
        | cons raw rest =>
            exact ⟨raw.decoded, raw.encode, _, ⟨raw, rfl, rfl⟩, ⟨rest, filled.2, rfl, rfl⟩, rfl⟩
  | case2 index entries full =>
      have above : ¬ index.toNat < count.toNat := by
        rwa [← UInt16.lt_iff_toNat_lt]
      rw [readFrom, if_neg full]
      refine (Reads.pure entries).congr fun table taken => ?_
      constructor
      · rintro ⟨rfl, rfl⟩
        exact ⟨[], Nat.le_of_not_lt above, rfl, (Array.append_empty).symm⟩
      · rintro ⟨constants, filled, rfl, rfl⟩
        cases constants with
        | nil => exact ⟨Array.append_empty, rfl⟩
        | cons raw rest => exact absurd filled.1 above

/-- A pool is read exactly from the ways to lay it out. -/
theorem reads : Reads read (fun pool taken => ∃ raw : RawPool,
    raw.pool = pool ∧ taken = raw.encode) := by
  refine ((Reads.u16.during _).bind fun count =>
    (reads_from count 1 #[none]).bind_pure Pool.mk).congr fun pool taken => ?_
  constructor
  · rintro ⟨count, _, _, rfl, ⟨_, ⟨constants, filled, rfl, rfl⟩, rfl⟩, rfl⟩
    refine ⟨⟨count, constants, filled⟩, ?_, rfl⟩
    simp [RawPool.pool]
  · rintro ⟨raw, rfl, rfl⟩
    refine ⟨raw.count, _, _, rfl, ⟨_, ⟨raw.constants, raw.filled, rfl, rfl⟩, ?_⟩, rfl⟩
    simp [RawPool.pool]

end Pool

namespace RawPool

theorem slots_eq (raw : RawConstant) : raw.slots = 1 ∨ raw.slots = 2 :=
  raw.decoded.slots_eq

/-- No constant starts in front of the first. -/
theorem startingAt?_eq_none (wanted index : Nat) (constants : List RawConstant)
    (before : wanted < index) : startingAt? wanted index constants = none := by
  induction constants generalizing index with
  | nil => rfl
  | cons raw rest ih =>
      have apart : index ≠ wanted := by omega
      rw [startingAt?, if_neg apart, ih (index + raw.slots) (by omega)]

/-- The place of a constant in the table is the one where it starts. -/
theorem join_getElem?_laidOut (count wanted index : Nat) (constants : List RawConstant)
    (filled : Fills count index constants) (behind : index ≤ wanted) :
    (laidOut count index constants)[wanted - index]?.join =
      (startingAt? wanted index constants).map RawConstant.decoded := by
  induction constants generalizing index with
  | nil => rfl
  | cons raw rest ih =>
      obtain ⟨room, filledRest⟩ := filled
      by_cases found : index = wanted
      · rw [startingAt?, if_pos found, ← found, Nat.sub_self]
        rfl
      · have farther : wanted - index = wanted - (index + 1) + 1 := by omega
        rw [startingAt?, if_neg found, laidOut, farther, List.getElem?_cons_succ]
        rcases slots_eq raw with narrow | wide
        · rw [if_neg (by omega), List.nil_append, narrow]
          rw [narrow] at filledRest
          exact ih (index + 1) filledRest (by omega)
        · rw [wide] at filledRest ⊢
          by_cases inside : index + 1 < count
          · rw [if_pos ⟨rfl, inside⟩, List.singleton_append]
            by_cases second : wanted = index + 1
            · rw [second, Nat.sub_self, startingAt?_eq_none _ _ _ (by omega)]
              rfl
            · have beyond : wanted - (index + 1) = wanted - (index + 2) + 1 := by omega
              rw [beyond, List.getElem?_cons_succ]
              exact ih (index + 2) filledRest (by omega)
          · -- the second place is behind the last one, so that nothing follows
            cases rest with
            | nil =>
                rw [if_neg fun both => inside both.2]
                rfl
            | cons next others =>
                have another := filledRest.1
                omega

theorem get?_pool (raw : RawPool) (index : UInt16) :
    raw.pool.get? index = (raw.constant? index).map RawConstant.decoded := by
  unfold Pool.get? constant? pool
  rw [List.getElem?_toArray]
  by_cases first : index.toNat = 0
  · rw [first, startingAt?_eq_none 0 1 _ Nat.zero_lt_one]
    rfl
  · have behind : index.toNat = index.toNat - 1 + 1 := by omega
    rw [← join_getElem?_laidOut _ _ _ _ raw.filled (by omega), behind, List.getElem?_cons_succ,
      Nat.add_sub_cancel]

theorem utf8_pool (raw : RawPool) (index : UInt16) (text : String) :
    raw.pool.utf8 index = .ok text ↔ raw.text? index = some text := by
  unfold Pool.utf8 Pool.entry text?
  rw [raw.get?_pool index]
  cases raw.constant? index with
  | none => simp [bind, Except.bind]
  | some found =>
      cases found with
      | text payload fits => simp [bind, Except.bind, RawConstant.decoded, pure, Except.pure]
      | other constant plain =>
          cases constant with
          | utf8 text => exact absurd rfl (plain text)
          | _ => simp [bind, Except.bind, RawConstant.decoded, Pool.mismatch]

theorem className_pool (raw : RawPool) (index : UInt16) (name : String) :
    raw.pool.className index = .ok name ↔ raw.className? index = some name := by
  unfold Pool.className Pool.entry className?
  rw [raw.get?_pool index]
  cases raw.constant? index with
  | none => simp [bind, Except.bind]
  | some found =>
      cases found with
      | text payload fits => simp [bind, Except.bind, RawConstant.decoded, Pool.mismatch]
      | other constant plain =>
          cases constant with
          | classRef target => exact raw.utf8_pool target name
          | _ => simp [bind, Except.bind, RawConstant.decoded, Pool.mismatch]

/-- The name and the descriptor of a member are the texts of its two indices. -/
theorem declared_pool (raw : RawPool) (kind : MemberKind) (owner : String)
    (nameIndex descriptorIndex : UInt16) (name descriptor : String) :
    raw.pool.declared kind owner nameIndex descriptorIndex = .ok (name, descriptor) ↔
      raw.text? nameIndex = some name ∧ raw.text? descriptorIndex = some descriptor := by
  rw [← raw.utf8_pool nameIndex, ← raw.utf8_pool descriptorIndex]
  unfold Pool.declared
  cases raw.pool.utf8 nameIndex with
  | error reason => simp [bind, Except.bind, Except.mapError]
  | ok found =>
      cases raw.pool.utf8 descriptorIndex with
      | error reason => simp [bind, Except.bind, Except.mapError]
      | ok shape => simp [bind, Except.bind, Except.mapError, pure, Except.pure]

end RawPool

namespace Pool

/-- A text is itself what is text-like about it. -/
theorem stringAt_eq_of_utf8 (pool : Pool) (index : UInt16) (text : String)
    (found : pool.utf8 index = .ok text) : pool.stringAt index = .ok text := by
  unfold utf8 at found
  unfold stringAt
  cases looked : pool.entry index with
  | error reason =>
      rw [looked] at found
      cases found
  | ok constant =>
      rw [looked] at found
      cases constant with
      | utf8 value => exact found
      | _ => cases found

end Pool

namespace Constant

/-- The body of a constant is stepped over as a whole. -/
theorem skipBody_body (raw : RawConstant) (index : UInt16) (position : Nat) (rest : Bytes) :
    skipBody raw.tag index ⟨position, raw.body ++ rest⟩ =
      .ok (raw.slots == 2) ⟨position + raw.body.length, rest⟩ := by
  have stepsOver (width : Nat) (wide : Bool) (bytes : Bytes) (sized : bytes.length = width) :
      (do Read.discard width; return wide : Read Bool) ⟨position, bytes ++ rest⟩ =
        .ok wide ⟨position + bytes.length, rest⟩ :=
    ((Reads.discard width).bind_pure fun _ => wide).eval ⟨(), sized, rfl⟩ position rest
  cases raw with
  | text payload fits =>
      have sized := RawConstant.toNat_length payload fits
      refine (Reads.u16.bind fun length => (Reads.discard length.toNat).bind_pure
        fun _ => false).eval ⟨UInt16.ofNat payload.length, bigEndianBytes 2 payload.length,
          payload, ?_, ⟨(), sized.symm, rfl⟩, rfl⟩ position rest
      rw [sized]
  | other constant plain =>
      cases constant with
      | utf8 text => exact absurd rfl (plain text)
      | integer _ | float _ => exact stepsOver 4 false _ rfl
      | long _ | double _ => exact stepsOver 8 true _ rfl
      | classRef _ | stringRef _ | methodType _ | moduleRef _ | packageRef _ =>
          exact stepsOver 2 false _ rfl
      | fieldRef _ _ | methodRef _ _ | interfaceMethodRef _ _ | nameAndType _ _ | dynamic _ _
      | invokeDynamic _ _ => exact stepsOver 4 false _ rfl
      | methodHandle _ _ => exact stepsOver 3 false _ rfl

end Constant

namespace Pool

/-- The place behind a constant, whether that takes one place or two. -/
theorem next_eq_advance (constant : Constant) (index : UInt16) :
    next (constant.slots == 2) index = advance index constant.slots := by
  apply UInt16.toNat_inj.mp
  rw [toNat_next, toNat_advance]
  rcases constant.slots_eq with narrow | wide
  · rw [narrow]
    rfl
  · rw [wide]
    rfl

theorem skipFrom_flatMap (count index : UInt16) (constants : List RawConstant)
    (filled : Fills count.toNat index.toNat constants) (position : Nat) (rest : Bytes) :
    skipFrom count index ⟨position, constants.flatMap RawConstant.encode ++ rest⟩ =
      .ok () ⟨position + (constants.flatMap RawConstant.encode).length, rest⟩ := by
  induction constants generalizing index position with
  | nil =>
      have full : ¬ index < count := by
        rw [UInt16.lt_iff_toNat_lt]
        exact Nat.not_lt_of_le filled
      rw [skipFrom, if_neg full]
      rfl
  | cons raw others ih =>
      have room : index < count := UInt16.lt_iff_toNat_lt.mpr filled.1
      have behind := (fills_advance count index raw.slots others).mpr filled.2
      have placed : next (raw.slots == 2) index = advance index raw.slots :=
        next_eq_advance raw.decoded index
      rw [skipFrom, if_pos room, List.flatMap_cons, raw.encode_eq, List.append_assoc,
        List.append_assoc, Reads.bind_of_ok (Reads.u8.eval rfl _ _),
        Reads.bind_of_ok (Constant.skipBody_body raw index _ _), placed, ih _ behind]
      simp only [List.length_append, Nat.add_assoc]

/-- Stepping over a pool needs no more than that it is laid out as one. -/
theorem read_encode (raw : RawPool) (position : Nat) (rest : Bytes) :
    read ⟨position, raw.encode ++ rest⟩ = .ok raw.pool ⟨position + raw.encode.length, rest⟩ :=
  reads.eval ⟨raw, rfl, rfl⟩ position rest

theorem skip_encode (raw : RawPool) (position : Nat) (rest : Bytes) :
    skip ⟨position, raw.encode ++ rest⟩ = .ok () ⟨position + raw.encode.length, rest⟩ := by
  rw [skip, RawPool.encode, List.append_assoc,
    Reads.bind_of_ok ((Reads.u16.during _).eval rfl _ _), skipFrom_flatMap _ _ _ raw.filled,
    List.length_append, Nat.add_assoc]

end Pool

end Classpath
