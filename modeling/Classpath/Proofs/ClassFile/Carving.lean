import Classpath.ClassFile.Code
import Classpath.Proofs.ClassFile.Grammar
import Classpath.Registry.Residency

/-!
Carving against the layout of a class. Main statement: in bytes that parse, the walk that carves
finds the code that parsing has measured, whether the pool is at hand or is read again.
-/

set_option autoImplicit false

namespace Classpath

/-- What a read comes to, without where it leaves the cursor. -/
def Read.outcome {α : Type} : EStateM.Result Error Cursor α → Except Error α
  | .ok value _ => .ok value
  | .error error _ => .error error

theorem Read.run_eq_outcome {α : Type} (read : Read α) (bytes : Bytes) :
    Read.run read bytes = outcome (read (Cursor.start bytes)) := by
  unfold Read.run
  cases read (Cursor.start bytes) with
  | ok value after => rfl
  | error error after => rfl

namespace ClassFile

/-- What carving comes to once the place of the instructions is known, or known not to be. -/
def carvedAt (bytes : Bytes) (length : Nat) : Option Nat → Except Error (Option Bytes)
  | none => .ok none
  | some start =>
      if start + length ≤ bytes.length then .ok (some ((bytes.drop start).take length))
      else .error (.ofCause (.bytesTruncated length (bytes.length - start)))

theorem outcome_slice (length : Nat) (front rest : Bytes) :
    Read.outcome ((do return some (← Read.slice length) : Read (Option Bytes))
      ⟨front.length, rest⟩) = carvedAt (front ++ rest) length (some front.length) := by
  by_cases enough : length ≤ rest.length
  · have sized := List.length_take_of_le enough
    have ran := ((Reads.slice length).bind_pure some).eval ⟨rest.take length, ⟨rfl, sized⟩, rfl⟩
      front.length (rest.drop length)
    rw [List.take_append_drop] at ran
    rw [ran, Read.outcome, carvedAt, List.length_append, if_pos (by omega), List.drop_left]
  · have short : ¬ (rest.take length).length = length := by
      rw [List.length_take]
      omega
    have ran : Read.slice length ⟨front.length, rest⟩ =
        .error (.ofCause (.bytesTruncated length rest.length)) ⟨front.length, rest⟩ := by
      unfold Read.slice
      exact if_neg short
    change Read.outcome (EStateM.bind (Read.slice length) _ _) = _
    rw [EStateM.bind, ran, Read.outcome, carvedAt, List.length_append, if_neg (by omega),
      Nat.add_sub_cancel_left]

/-! One step of the walk over the attributes of a method. -/

theorem stringAt_of_text? (pool : RawPool) (index : UInt16) (text : String)
    (named : pool.text? index = some text) (position : Nat) (rest : Bytes) :
    (ofExcept (pool.pool.stringAt index) : Read String) ⟨position, rest⟩ =
      .ok text ⟨position, rest⟩ := by
  have found := (pool.utf8_pool index text).mpr named
  rw [Pool.stringAt_eq_of_utf8 pool.pool index text found]
  rfl

theorem outcome_codeAmong_code (pool : RawPool) (length count : Nat) (raw : RawAttribute)
    (named : pool.text? raw.name = some Attribute.codeName) (room : 8 ≤ raw.payload.length)
    (front rest : Bytes) :
    Read.outcome (codeAmong pool.pool length (count + 1)
      ⟨front.length, raw.encode ++ rest⟩) =
        carvedAt (front ++ (raw.encode ++ rest)) length (some (front.length + 14)) := by
  have sized : (bigEndianBytes 4 raw.payload.length ++ raw.payload.take 8).length = 12 := by
    rw [List.length_append, length_bigEndianBytes, List.length_take_of_le room]
  have cut : raw.encode = bigEndianBytes 2 raw.name.toNat ++
      ((bigEndianBytes 4 raw.payload.length ++ raw.payload.take 8) ++ raw.payload.drop 8) := by
    simp only [RawAttribute.encode, List.append_assoc, List.take_append_drop]
  have sliced := outcome_slice length
    (front ++ (bigEndianBytes 2 raw.name.toNat ++
      (bigEndianBytes 4 raw.payload.length ++ raw.payload.take 8)))
    (raw.payload.drop 8 ++ rest)
  rw [List.length_append, List.length_append, sized, length_bigEndianBytes] at sliced
  simp only [cut, List.append_assoc] at sliced ⊢
  rw [codeAmong, Reads.bind_of_ok (Read.u16_append _ _ _),
    Reads.bind_of_ok (stringAt_of_text? pool raw.name _ named _ _), if_pos rfl,
    ← List.append_assoc (bigEndianBytes 4 raw.payload.length),
    Reads.bind_of_ok (Read.discard_append 12 _ sized _ _)]
  exact sliced

theorem codeAmong_other (pool : RawPool) (length count : Nat) (raw : RawAttribute)
    (named : (pool.text? raw.name).isSome) (other : pool.text? raw.name ≠ some Attribute.codeName)
    (position : Nat) (rest : Bytes) :
    codeAmong pool.pool length (count + 1) ⟨position, raw.encode ++ rest⟩ =
      codeAmong pool.pool length count ⟨position + raw.encode.length, rest⟩ := by
  obtain ⟨text, textNamed⟩ := Option.isSome_iff_exists.mp named
  have notCode : text ≠ Attribute.codeName := by
    intro code
    exact other (textNamed.trans (congrArg some code))
  have measured (position : Nat) (bytes : Bytes) :
      Read.u32 ⟨position, bigEndianBytes 4 raw.payload.length ++ bytes⟩ =
        .ok (UInt32.ofNat raw.payload.length) ⟨position + 4, bytes⟩ :=
    Reads.u32.eval (by rw [Attribute.toNat_length]) position bytes
  simp only [RawAttribute.encode, List.append_assoc]
  rw [codeAmong, Reads.bind_of_ok (Read.u16_append _ _ _),
    Reads.bind_of_ok (stringAt_of_text? pool raw.name text textNamed _ _), if_neg notCode,
    Reads.bind_of_ok (measured _ _),
    Reads.bind_of_ok (Read.discard_append _ _ (Attribute.toNat_length raw).symm _ _)]
  simp only [List.length_append, length_bigEndianBytes, Attribute.toNat_length, Nat.add_assoc]

/-- The attributes of a method are walked to the first that is named as code is. -/
theorem outcome_codeAmong (pool : RawPool) (length : Nat) (rows : List RawAttribute)
    (named : ∀ raw ∈ rows, (pool.text? raw.name).isSome)
    (room : ∀ raw, pool.codeAttribute? rows = some raw → 8 ≤ raw.payload.length)
    (front rest : Bytes) :
    Read.outcome (codeAmong pool.pool length rows.length
      ⟨front.length, rows.flatMap RawAttribute.encode ++ rest⟩) =
        carvedAt (front ++ (rows.flatMap RawAttribute.encode ++ rest)) length
          (RawClass.codeStartAmong? pool front.length rows) := by
  induction rows generalizing front with
  | nil => rfl
  | cons raw rows ih =>
      rw [pool.codeAttribute?_cons] at room
      rw [RawClass.codeStartAmong?, List.flatMap_cons, List.append_assoc, List.length_cons]
      by_cases code : pool.text? raw.name = some Attribute.codeName
      · rw [if_pos code] at room ⊢
        exact outcome_codeAmong_code pool length rows.length raw code (room raw rfl) front _
      · rw [if_neg code] at room ⊢
        have walked := ih (fun next member => named next (List.mem_cons_of_mem raw member)) room
          (front ++ raw.encode)
        rw [List.append_assoc, List.length_append] at walked
        rw [codeAmong_other pool length rows.length raw (named raw List.mem_cons_self) code]
        exact walked

/-! One step of the walk over the methods. -/

section Methods

variable (pool : RawPool) (owner name descriptor : String) (length count : Nat) (row : RawMember)

theorem declared_of_resolves (kind : MemberKind) {foundName foundDescriptor : String}
    (named : pool.text? row.name = some foundName)
    (shaped : pool.text? row.descriptor = some foundDescriptor) (position : Nat) (rest : Bytes) :
    (ofExcept (pool.pool.declared kind owner row.name row.descriptor) :
      Read (String × String)) ⟨position, rest⟩ =
        .ok (foundName, foundDescriptor) ⟨position, rest⟩ := by
  rw [(pool.declared_pool _ _ _ _ _ _).mpr ⟨named, shaped⟩]
  rfl

theorem methodCode_wanted (named : pool.text? row.name = some name)
    (shaped : pool.text? row.descriptor = some descriptor) (position : Nat) (rest : Bytes) :
    methodCode pool.pool owner name descriptor length (count + 1) ⟨position, row.encode ++ rest⟩ =
      codeAmong pool.pool length row.attributes.rows.length
        ⟨position + 8, row.attributes.rows.flatMap RawAttribute.encode ++ rest⟩ := by
  simp only [RawMember.encode, Table.encode, List.append_assoc]
  rw [methodCode, Reads.bind_of_ok (Read.discard_append 2 _ (length_bigEndianBytes 2 _) _ _),
    Reads.bind_of_ok (Read.u16_append _ _ _), Reads.bind_of_ok (Read.u16_append _ _ _),
    Reads.bind_of_ok (declared_of_resolves pool owner row .method named shaped _ _)]
  dsimp only
  rw [if_pos ⟨rfl, rfl⟩, Reads.bind_of_ok (Read.u16_length _ _ _), Table.toNat_length]

theorem methodCode_other (resolves : row.ResolvesAsMethod pool)
    (other : ¬ (pool.text? row.name = some name ∧ pool.text? row.descriptor = some descriptor))
    (position : Nat) (rest : Bytes) :
    methodCode pool.pool owner name descriptor length (count + 1) ⟨position, row.encode ++ rest⟩ =
      methodCode pool.pool owner name descriptor length count
        ⟨position + row.encode.length, rest⟩ := by
  obtain ⟨foundName, named⟩ := Option.isSome_iff_exists.mp resolves.name
  obtain ⟨foundDescriptor, shaped⟩ := Option.isSome_iff_exists.mp resolves.descriptor
  rw [named, shaped, Option.some.injEq, Option.some.injEq] at other
  simp only [RawMember.encode, List.append_assoc]
  rw [methodCode, Reads.bind_of_ok (Read.discard_append 2 _ (length_bigEndianBytes 2 _) _ _),
    Reads.bind_of_ok (Read.u16_append _ _ _), Reads.bind_of_ok (Read.u16_append _ _ _),
    Reads.bind_of_ok (declared_of_resolves pool owner row .method named shaped _ _)]
  dsimp only
  rw [if_neg other, Reads.bind_of_ok (Attribute.skipTable_encode _ _ _)]
  simp only [List.length_append, length_bigEndianBytes, Nat.add_assoc]

end Methods

/-- The methods are walked to the first of the name and descriptor. -/
theorem outcome_methodCode (pool : RawPool) (owner name descriptor : String) (length : Nat)
    (rows : List RawMember) (resolves : ∀ row ∈ rows, row.ResolvesAsMethod pool)
    (front rest : Bytes) :
    Read.outcome (methodCode pool.pool owner name descriptor length rows.length
      ⟨front.length, rows.flatMap RawMember.encode ++ rest⟩) =
        carvedAt (front ++ (rows.flatMap RawMember.encode ++ rest)) length
          (RawClass.codeStartOf? pool name descriptor front.length rows) := by
  induction rows generalizing front with
  | nil => rfl
  | cons row rows ih =>
      have resolved := resolves row List.mem_cons_self
      rw [RawClass.codeStartOf?, List.length_cons, List.flatMap_cons, List.append_assoc]
      by_cases wanted : pool.text? row.name = some name ∧
          pool.text? row.descriptor = some descriptor
      · rw [if_pos wanted, methodCode_wanted pool owner name descriptor length rows.length row
          wanted.1 wanted.2]
        have walked := outcome_codeAmong pool length row.attributes.rows resolved.attributes
          resolved.code (front ++ (bigEndianBytes 2 row.accessFlags.toNat ++
            (bigEndianBytes 2 row.name.toNat ++ (bigEndianBytes 2 row.descriptor.toNat ++
              bigEndianBytes 2 row.attributes.rows.length))))
          (rows.flatMap RawMember.encode ++ rest)
        simp only [List.length_append, length_bigEndianBytes, List.append_assoc] at walked
        simpa only [RawMember.encode, Table.encode, List.append_assoc] using walked
      · rw [if_neg wanted, methodCode_other pool owner name descriptor length rows.length row
          resolved wanted]
        have walked := ih (fun next member => resolves next (List.mem_cons_of_mem row member))
          (front ++ row.encode)
        rw [List.append_assoc, List.length_append] at walked
        exact walked

theorem skipFields_flatMap (rows : List RawMember) (position : Nat) (rest : Bytes) :
    skipFields rows.length ⟨position, rows.flatMap RawMember.encode ++ rest⟩ =
      .ok () ⟨position + (rows.flatMap RawMember.encode).length, rest⟩ := by
  induction rows generalizing position with
  | nil => rfl
  | cons row rows ih =>
      have sized : (bigEndianBytes 2 row.accessFlags.toNat ++ (bigEndianBytes 2 row.name.toNat ++
          bigEndianBytes 2 row.descriptor.toNat)).length = 6 := by
        simp only [List.length_append, length_bigEndianBytes]
      have encoded : row.encode = (bigEndianBytes 2 row.accessFlags.toNat ++
          (bigEndianBytes 2 row.name.toNat ++ bigEndianBytes 2 row.descriptor.toNat)) ++
            row.attributes.encode RawAttribute.encode := by
        simp only [RawMember.encode, List.append_assoc]
      rw [List.length_cons, skipFields, List.flatMap_cons, encoded, List.append_assoc,
        List.append_assoc, Reads.bind_of_ok (Read.discard_append 6 _ sized _ _),
        Reads.bind_of_ok (Attribute.skipTable_encode _ _ _), ih]
      simp only [List.length_append, sized, Nat.add_assoc]

theorem length_encodeIndices (indices : List UInt16) :
    (indices.flatMap fun index => bigEndianBytes 2 index.toNat).length = 2 * indices.length := by
  induction indices with
  | nil => rfl
  | cons index indices ih =>
      rw [List.flatMap_cons, List.length_append, ih, length_bigEndianBytes, List.length_cons]
      omega

/-- Behind the pool, going by any pool that tells the methods. -/
theorem outcome_behindPool (raw : RawClass) (used : RawPool)
    (resolves : ∀ row ∈ raw.methods.rows, row.ResolvesAsMethod used) (tail : Bytes)
    (owner name descriptor : String) (length : Nat) :
    Read.outcome ((do
      Read.discard 6
      let interfaceCount ← Read.u16
      Read.discard (2 * interfaceCount.toNat)
      let fieldCount ← Read.u16
      skipFields fieldCount.toNat
      let methodCount ← Read.u16
      methodCode used.pool owner name descriptor length methodCount.toNat :
        Read (Option Bytes))
          ⟨8 + raw.pool.encode.length, raw.encodeIdentity ++ (raw.encodeTables ++ tail)⟩) =
      carvedAt (raw.encode ++ tail) length (RawClass.codeStartOf? used name descriptor
        raw.encodeFront.length raw.methods.rows) := by
  have walked := outcome_methodCode used owner name descriptor length raw.methods.rows
    resolves raw.encodeFront tail
  rw [← List.append_assoc, ← raw.encode_eq_front] at walked
  rw [← walked]
  simp only [RawClass.encodeTables, Table.encode, List.append_assoc]
  rw [Reads.bind_of_ok (Read.discard_append 6 _ raw.length_encodeIdentity _ _),
    Reads.bind_of_ok (Read.u16_length _ _ _), Table.toNat_length,
    Reads.bind_of_ok (Read.discard_append _ _ (length_encodeIndices _) _ _),
    Reads.bind_of_ok (Read.u16_length _ _ _), Table.toNat_length,
    Reads.bind_of_ok (skipFields_flatMap _ _ _),
    Reads.bind_of_ok (Read.u16_length _ _ _), Table.toNat_length]
  simp only [RawClass.encodeFront, Table.encode, List.length_append, raw.length_encodeHead,
    raw.length_encodeIdentity, length_bigEndianBytes, length_encodeIndices, Nat.add_assoc]

theorem start_encode (raw : RawClass) (tail : Bytes) :
    Cursor.start (raw.encode ++ tail) = ⟨0, raw.encodeHead ++ (raw.pool.encode ++
      (raw.encodeIdentity ++ (raw.encodeTables ++ tail)))⟩ := by
  simp only [Cursor.start, RawClass.encode, List.append_assoc]

/-- With a pool at hand that tells the methods, the walk finds what that pool tells, whatever pool
is in the bytes. -/
theorem run_readCode_kept (raw : RawClass) (used : RawPool)
    (resolves : ∀ row ∈ raw.methods.rows, row.ResolvesAsMethod used) (tail : Bytes)
    (owner name descriptor : String) (length : Nat) :
    (readCode (some used.pool) owner name descriptor length).run (raw.encode ++ tail) =
      carvedAt (raw.encode ++ tail) length (RawClass.codeStartOf? used name descriptor
        raw.encodeFront.length raw.methods.rows) := by
  rw [Read.run_eq_outcome, start_encode, readCode,
    Reads.bind_of_ok (Read.discard_append 8 _ raw.length_encodeHead _ _), Nat.zero_add,
    ← outcome_behindPool raw used resolves tail owner name descriptor length]
  dsimp only
  rw [Reads.bind_of_ok (Pool.skip_encode raw.pool _ _), pure_bind]

/-- The walk over a class that resolves, with its pool kept or to be read again. -/
theorem run_readCode (raw : RawClass) (resolves : raw.Resolvable) (tail : Bytes)
    (pool? : Option Pool) (kept : pool? = some raw.pool.pool ∨ pool? = none)
    (owner name descriptor : String) (length : Nat) :
    (readCode pool? owner name descriptor length).run (raw.encode ++ tail) =
      carvedAt (raw.encode ++ tail) length (raw.codeStart? name descriptor) := by
  rw [RawClass.codeStart?]
  rcases kept with rfl | rfl
  · exact run_readCode_kept raw raw.pool resolves.methods tail owner name descriptor length
  · rw [Read.run_eq_outcome, start_encode, readCode,
      Reads.bind_of_ok (Read.discard_append 8 _ raw.length_encodeHead _ _), Nat.zero_add,
      ← outcome_behindPool raw raw.pool resolves.methods tail owner name descriptor length]
    dsimp only
    rw [Reads.bind_of_ok (Pool.read_encode raw.pool _ _)]

end ClassFile

/-- A place right behind four bytes that spell a number. -/
def BehindLength (bytes : Bytes) (start : Nat) (length : UInt32) : Prop :=
  ∃ before after : Bytes, bytes = before ++ (bigEndianBytes 4 length.toNat ++ after) ∧
    start = before.length + 4

/-- The place behind the name, the length, two words and the length of the code of an attribute. -/
def InstructionsOf (bytes : Bytes) (start : Nat) (code : RawAttribute) : Prop :=
  ∃ before after : Bytes, bytes = before ++ (code.encode ++ after) ∧ start = before.length + 14

theorem InstructionsOf.behindLength {bytes : Bytes} {start : Nat} {code : RawAttribute}
    (placed : InstructionsOf bytes start code) (room : 8 ≤ code.payload.length) :
    BehindLength bytes start (Attribute.codeLengthIn code.payload) := by
  obtain ⟨before, after, rfl, rfl⟩ := placed
  have cut := Attribute.payload_eq code.payload room
  have four : (code.payload.take 4).length = 4 := List.length_take_of_le (by omega)
  refine ⟨before ++ (bigEndianBytes 2 code.name.toNat ++
    (bigEndianBytes 4 code.payload.length ++ code.payload.take 4)),
    code.payload.drop 8 ++ after, ?_, ?_⟩
  · rw [RawAttribute.encode]
    nth_rewrite 2 [cut]
    simp only [List.append_assoc]
  · simp only [List.length_append, length_bigEndianBytes, four]

/-- The first code attribute of the first row of the name and descriptor. -/
def RawPool.codeOf? (pool : RawPool) (name descriptor : String) (rows : List RawMember) :
    Option RawAttribute :=
  (rows.find? fun row => pool.text? row.name = some name ∧
    pool.text? row.descriptor = some descriptor).bind fun row =>
      pool.codeAttribute? row.attributes.rows

theorem RawPool.codeOf?_cons (pool : RawPool) (name descriptor : String) (row : RawMember)
    (rows : List RawMember) :
    pool.codeOf? name descriptor (row :: rows) =
      if pool.text? row.name = some name ∧ pool.text? row.descriptor = some descriptor then
        pool.codeAttribute? row.attributes.rows
      else pool.codeOf? name descriptor rows := by
  rw [codeOf?, List.find?_cons]
  by_cases wanted : pool.text? row.name = some name ∧ pool.text? row.descriptor = some descriptor
  · rw [decide_eq_true wanted, if_pos wanted]
    rfl
  · rw [decide_eq_false wanted, if_neg wanted]
    rfl

namespace RawClass

/-- The place found among attributes is that of the instructions in the first code attribute. -/
theorem codeStartAmong?_instructionsOf (pool : RawPool) (rows : List RawAttribute)
    (front rest : Bytes) :
    Option.Rel (InstructionsOf (front ++ (rows.flatMap RawAttribute.encode ++ rest)))
      (codeStartAmong? pool front.length rows) (pool.codeAttribute? rows) := by
  induction rows generalizing front with
  | nil => exact .none
  | cons raw rows ih =>
      rw [pool.codeAttribute?_cons, codeStartAmong?, List.flatMap_cons, List.append_assoc]
      by_cases code : pool.text? raw.name = some Attribute.codeName
      · rw [if_pos code, if_pos code]
        exact .some ⟨front, rows.flatMap RawAttribute.encode ++ rest, rfl, rfl⟩
      · rw [if_neg code, if_neg code]
        have found := ih (front ++ raw.encode)
        rwa [List.append_assoc, List.length_append] at found

/-- The place found among methods is that of the instructions of the first of the name and
descriptor. -/
theorem codeStartOf?_instructionsOf (pool : RawPool) (name descriptor : String)
    (rows : List RawMember) (front rest : Bytes) :
    Option.Rel (InstructionsOf (front ++ (rows.flatMap RawMember.encode ++ rest)))
      (codeStartOf? pool name descriptor front.length rows)
      (pool.codeOf? name descriptor rows) := by
  induction rows generalizing front with
  | nil => exact .none
  | cons row rows ih =>
      rw [pool.codeOf?_cons, codeStartOf?, List.flatMap_cons, List.append_assoc]
      by_cases wanted : pool.text? row.name = some name ∧
          pool.text? row.descriptor = some descriptor
      · rw [if_pos wanted, if_pos wanted]
        have among := codeStartAmong?_instructionsOf pool row.attributes.rows
          (front ++ (bigEndianBytes 2 row.accessFlags.toNat ++
            (bigEndianBytes 2 row.name.toNat ++ (bigEndianBytes 2 row.descriptor.toNat ++
              bigEndianBytes 2 row.attributes.rows.length))))
          (rows.flatMap RawMember.encode ++ rest)
        simp only [List.length_append, length_bigEndianBytes, List.append_assoc] at among
        simpa only [RawMember.encode, Table.encode, List.append_assoc] using among
      · rw [if_neg wanted, if_neg wanted]
        have later := ih (front ++ row.encode)
        rwa [List.append_assoc, List.length_append] at later

/-- What the first method of a name and descriptor records is what its first code attribute
says. -/
theorem codeLength_eq_codeOf? (pool : RawPool) (name descriptor : String) (rows : List RawMember)
    (methods : List Method)
    (described : List.Forall₂ (RawMember.DescribesMethod pool) rows methods) :
    (methods.find? fun method => method.name = name ∧ method.descriptor = descriptor).bind
        Method.codeLength =
      (pool.codeOf? name descriptor rows).map fun code =>
        Attribute.codeLengthIn code.payload := by
  induction described with
  | nil => rfl
  | @cons row method rows methods describes _ ih =>
      have wanted : (pool.text? row.name = some name ∧
          pool.text? row.descriptor = some descriptor) ↔
            method.name = name ∧ method.descriptor = descriptor := by
        rw [describes.name, describes.descriptor, Option.some.injEq, Option.some.injEq]
      rw [pool.codeOf?_cons, List.find?_cons]
      by_cases found : method.name = name ∧ method.descriptor = descriptor
      · rw [if_pos (wanted.mpr found), decide_eq_true found]
        exact describes.codeLength
      · rw [if_neg (fun both => found (wanted.mp both)), decide_eq_false found]
        exact ih

/-- The code of methods that resolve has room for what precedes the instructions. -/
theorem room_of_codeOf? (pool : RawPool) (name descriptor : String) (rows : List RawMember)
    (resolves : ∀ row ∈ rows, row.ResolvesAsMethod pool) (code : RawAttribute)
    (found : pool.codeOf? name descriptor rows = some code) : 8 ≤ code.payload.length := by
  obtain ⟨row, member, named⟩ := Option.bind_eq_some_iff.mp found
  exact (resolves row (List.mem_of_find?_eq_some member)).code code named

theorem codeStart?_instructionsOf (raw : RawClass) (tail : Bytes) (name descriptor : String) :
    Option.Rel (InstructionsOf (raw.encode ++ tail)) (raw.codeStart? name descriptor)
      (raw.pool.codeOf? name descriptor raw.methods.rows) := by
  rw [raw.encode_eq_front, List.append_assoc]
  exact codeStartOf?_instructionsOf raw.pool name descriptor raw.methods.rows raw.encodeFront tail

theorem codeStart?_behindLength (raw : RawClass) (cls : ClassFile) (resolves : raw.Resolvable)
    (describes : raw.Describes cls) (tail : Bytes) (name descriptor : String) :
    Option.Rel (BehindLength (raw.encode ++ tail)) (raw.codeStart? name descriptor)
      ((cls.method? name descriptor).bind Method.codeLength) := by
  have placed := raw.codeStart?_instructionsOf tail name descriptor
  have room := room_of_codeOf? raw.pool name descriptor raw.methods.rows resolves.methods
  have recorded := codeLength_eq_codeOf? raw.pool name descriptor raw.methods.rows cls.methods
    describes.methods
  rw [ClassFile.method?, recorded]
  generalize raw.codeStart? name descriptor = start? at placed ⊢
  generalize raw.pool.codeOf? name descriptor raw.methods.rows = code? at placed room ⊢
  cases placed with
  | none => exact .none
  | @some start code placed => exact .some (placed.behindLength (room code rfl))

/-- The specimen's code is one byte, with four behind it that end the class. -/
theorem specimen_carved : specimen.codeStart? "m" "()V" = some 109 ∧
    specimen.encode.length = 114 ∧ (specimen.encode.drop 109).take 1 = [0xB1] := by
  decide +kernel

end RawClass

namespace ClassObject

/-- Code is loaded from where the layout of the bytes has it, whether the pool is kept or not. -/
theorem loadCode_eq_carvedAt (raw : RawClass) (resolves : raw.Resolvable) (tail : Bytes)
    {cls : ClassFile} {registry : Registry} {files : FileTree} {kept : Option Pool}
    (found : registry.readClassOf files cls = .ok (some (raw.encode ++ tail)))
    (resident : kept = some raw.pool.pool ∨ kept = none) (name descriptor : String)
    (length : Nat) :
    (⟨cls, kept⟩ : ClassObject).loadCode registry files name descriptor length =
      (ClassFile.carvedAt (raw.encode ++ tail) length (raw.codeStart? name descriptor)).mapError
        (·.within (.loadingBytecode cls.name name descriptor)) := by
  simp only [loadCode, found]
  change ClassFile.carve cls kept (raw.encode ++ tail) name descriptor length = _
  rw [ClassFile.carve, ClassFile.run_readCode raw resolves tail kept resident]

/-- Of bytes that parse, what is carved for a method is what parsing has measured: nothing where the
first method of the name and descriptor has no code or is not there, and else the bytes behind the
length of its code, as many as are wanted. That the pool was released makes no difference. -/
theorem loadCode_agrees_with_parse (bytes : Bytes) (own : Bool) (source : String)
    (cls : ClassFile) (pool : Pool) (parsed : ClassFile.parse bytes own source = .ok (cls, pool)) :
    ∃ (raw : RawClass) (tail : Bytes),
      raw.Resolvable ∧ bytes = raw.encode ++ tail ∧ raw.Describes cls ∧
      ∀ (registry : Registry) (files : FileTree) (kept : Option Pool) (name descriptor : String)
        (length : Nat), registry.readClassOf files cls = .ok (some bytes) →
        kept = some pool ∨ kept = none →
        let outcome := (⟨cls, kept⟩ : ClassObject).loadCode registry files name descriptor length
        match (cls.method? name descriptor).bind Method.codeLength with
        | none => outcome = .ok none
        | some codeLength => ∃ start, raw.codeStart? name descriptor = some start ∧
            BehindLength bytes start codeLength ∧
            outcome =
              if start + length ≤ bytes.length then .ok (some ((bytes.drop start).take length))
              else .error ⟨[.loadingBytecode cls.name name descriptor],
                .bytesTruncated length (bytes.length - start)⟩ := by
  obtain ⟨raw, tail, resolves, describes, _, _, _, rfl, rfl⟩ :=
    (ClassFile.parse_eq_ok_iff _ _ _ _ _).mp parsed
  refine ⟨raw, tail, resolves, rfl, describes, ?_⟩
  intro registry files kept name descriptor length found resident outcome
  have carved : outcome = (ClassFile.carvedAt (raw.encode ++ tail) length
      (raw.codeStart? name descriptor)).mapError
        (·.within (.loadingBytecode cls.name name descriptor)) :=
    loadCode_eq_carvedAt raw resolves tail found resident name descriptor length
  have placed := raw.codeStart?_behindLength cls resolves describes tail name descriptor
  rw [carved]
  generalize (cls.method? name descriptor).bind Method.codeLength = codeLength? at placed ⊢
  generalize raw.codeStart? name descriptor = start? at placed ⊢
  cases placed with
  | none => rfl
  | @some start codeLength behind =>
      refine ⟨start, rfl, behind, ?_⟩
      rw [ClassFile.carvedAt]
      split
      · rfl
      · rfl

/-- A registry with one class file behind a key. -/
def specimenRegistry : Registry :=
  { Registry.empty none with
    entries := (∅ : Std.ExtTreeMap String Entry).insert "A.class" (.file "A.class") }

/-- A class from one file has the bytes that are in it. -/
theorem readClassOf_filesWith {registry : Registry} {cls : ClassFile} (content : Bytes)
    (sourced : cls.source = "A.class")
    (entered : registry.entries["A.class"]? = some (.file "A.class")) :
    registry.readClassOf (RawClass.filesWith content) cls = .ok (some content) := by
  rw [Registry.readClassOf, Registry.readResource, sourced, entered]
  dsimp only
  rw [Entry.read, RawClass.filesWith_read]
  rfl

theorem specimenRegistry_readClassOf {cls : ClassFile} (content : Bytes)
    (sourced : cls.source = "A.class") :
    specimenRegistry.readClassOf (RawClass.filesWith content) cls = .ok (some content) :=
  readClassOf_filesWith content sourced Std.ExtTreeMap.getElem?_insert_self

/-- One byte is carved, and one too many are not there. -/
theorem loadCode_specimen : ∃ cls pool,
    ClassFile.parse RawClass.specimen.encode true "A.class" = .ok (cls, pool) ∧
      specimenRegistry.readClassOf RawClass.specimenFiles cls = .ok (some RawClass.specimen.encode) ∧
      (⟨cls, none⟩ : ClassObject).loadCode specimenRegistry RawClass.specimenFiles "m" "()V" 1 =
        .ok (some [0xB1]) ∧
      (⟨cls, some pool⟩ : ClassObject).loadCode specimenRegistry RawClass.specimenFiles "m" "()V" 6 =
        .error ⟨[.loadingBytecode cls.name "m" "()V"], .bytesTruncated 6 5⟩ := by
  obtain ⟨cls, parsed, describes, _, sourced⟩ := ClassFile.exists_parse_specimen
  have behind : specimenRegistry.readClassOf RawClass.specimenFiles cls =
      .ok (some RawClass.specimen.encode) :=
    specimenRegistry_readClassOf RawClass.specimen.encode sourced
  obtain ⟨raw, tail, _, laid, described, agrees⟩ := loadCode_agrees_with_parse _ _ _ _ _ parsed
  obtain ⟨same, _⟩ := PrefixFree.rawClass RawClass.specimen raw [] tail
    (by rw [List.append_nil, laid])
  subst same
  obtain ⟨placed, sized, byte⟩ := RawClass.specimen_carved
  have measured := RawClass.specimen.codeStart?_behindLength cls RawClass.specimen_resolvable
    describes [] "m" "()V"
  rw [placed] at measured
  have one := agrees specimenRegistry RawClass.specimenFiles none "m" "()V" 1 behind (Or.inr rfl)
  have six := agrees specimenRegistry RawClass.specimenFiles (some _) "m" "()V" 6 behind (Or.inl rfl)
  generalize (cls.method? "m" "()V").bind Method.codeLength = codeLength? at measured one six
  cases measured with
  | some _ =>
      obtain ⟨start, located, _, carvedOne⟩ := one
      obtain ⟨_, locatedAgain, _, carvedSix⟩ := six
      rw [placed] at located locatedAgain
      cases located
      cases locatedAgain
      refine ⟨cls, _, parsed, behind, carvedOne.trans ?_, carvedSix.trans ?_⟩
      · have enough : 109 + 1 ≤ RawClass.specimen.encode.length := by omega
        rw [if_pos enough, byte]
      · have short : ¬ 109 + 6 ≤ RawClass.specimen.encode.length := by omega
        have left : RawClass.specimen.encode.length - 109 = 5 := by omega
        rw [if_neg short, left]

end ClassObject

end Classpath
