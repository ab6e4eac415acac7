import Classpath.Proofs.ClassFile.Carving
import Classpath.Proofs.ClassFile.Skipping

/-!
What stands in front of carved instructions, whatever the bytes are that they were carved from.
Main statement: the walk comes to instructions only behind the length of the code in an attribute
of a method, and the pool that it goes by tells the attribute and the method as they were asked for.
-/

set_option autoImplicit false

namespace Classpath

/-- What the attributes of a method have in front of the instructions in one of them: the attributes
that were passed, then a name, a length and two words, and the length of the code. -/
structure CodeFront where
  passed : List RawAttribute
  name : UInt16
  opening : Bytes
  codeLength : UInt32
  opened : opening.length = 8

def CodeFront.encode (front : CodeFront) : Bytes :=
  front.passed.flatMap RawAttribute.encode ++ (bigEndianBytes 2 front.name.toNat ++
    (front.opening ++ bigEndianBytes 4 front.codeLength.toNat))

/-- What a method table has in front of the instructions of one of its rows. -/
structure MethodFront where
  passed : List RawMember
  accessFlags : UInt16
  name : UInt16
  descriptor : UInt16
  attributeCount : UInt16
  code : CodeFront
  inside : code.passed.length < attributeCount.toNat

def MethodFront.encode (front : MethodFront) : Bytes :=
  front.passed.flatMap RawMember.encode ++ (bigEndianBytes 2 front.accessFlags.toNat ++
    (bigEndianBytes 2 front.name.toNat ++ (bigEndianBytes 2 front.descriptor.toNat ++
      (bigEndianBytes 2 front.attributeCount.toNat ++ front.code.encode))))

/-- The pool tells the row as a method of the name and descriptor, and the attribute in it as one of
code. -/
structure MethodFront.Tells (pool : Pool) (name descriptor : String) (front : MethodFront) :
    Prop where
  name : pool.utf8 front.name = .ok name
  descriptor : pool.utf8 front.descriptor = .ok descriptor
  code : pool.stringAt front.code.name = .ok Attribute.codeName

/-- What a class has between its pool and the instructions of one of its methods. Of the six bytes
that come first nothing is said. -/
structure TableFront where
  identity : Bytes
  interfaces : Table UInt16
  fields : Table RawMember
  methodCount : UInt16
  method : MethodFront
  identified : identity.length = 6
  inside : method.passed.length < methodCount.toNat

def TableFront.encode (front : TableFront) : Bytes :=
  front.identity ++ (front.interfaces.encode (fun index => bigEndianBytes 2 index.toNat) ++
    (front.fields.encode RawMember.encode ++
      (bigEndianBytes 2 front.methodCount.toNat ++ front.method.encode)))

/-- What a class has in front of the instructions of one of its methods. Of the eight bytes that
come first nothing is said. -/
structure CodePlace where
  head : Bytes
  pool : RawPool
  tables : TableFront
  headed : head.length = 8

namespace CodePlace

def encode (place : CodePlace) : Bytes :=
  place.head ++ (place.pool.encode ++ place.tables.encode)

/-- The place is in a method of the name and descriptor, as the pool tells it. -/
def ToldBy (pool : Pool) (name descriptor : String) (place : CodePlace) : Prop :=
  place.tables.method.Tells pool name descriptor

end CodePlace

/-- A row opens with three words. -/
theorem RawMember.exists_head (head : Bytes) (sized : head.length = 6)
    (attributes : Table RawAttribute) :
    ∃ row : RawMember, row.encode = head ++ attributes.encode RawAttribute.encode := by
  have flagsSized : (head.take 2).length = 2 := by
    rw [List.length_take]
    omega
  have nameSized : ((head.drop 2).take 2).length = 2 := by
    rw [List.length_take, List.length_drop]
    omega
  have descriptorSized : ((head.drop 2).drop 2).length = 2 := by
    rw [List.length_drop, List.length_drop]
    omega
  obtain ⟨flags, flagsSpelled⟩ := exists_word_of_length_two _ flagsSized
  obtain ⟨name, nameSpelled⟩ := exists_word_of_length_two _ nameSized
  obtain ⟨descriptor, descriptorSpelled⟩ := exists_word_of_length_two _ descriptorSized
  refine ⟨⟨flags, name, descriptor, attributes⟩, ?_⟩
  simp only [encode, ← flagsSpelled, ← nameSpelled, ← descriptorSpelled, List.append_assoc]
  rw [← List.append_assoc (List.take 2 (List.drop 2 head)), List.take_append_drop,
    ← List.append_assoc, List.take_append_drop]

namespace ClassFile

/-- Twelve bytes open a code attribute behind its name, and the length of the code is in the last
four of them. -/
theorem exists_codeLength (bytes : Bytes) (sized : bytes.length = 12) :
    ∃ (opening : Bytes) (codeLength : UInt32), opening.length = 8 ∧
      bytes = opening ++ bigEndianBytes 4 codeLength.toNat := by
  have front : (bytes.take 8).length = 8 := by
    rw [List.length_take]
    omega
  have back : (bytes.drop 8).length = 4 := by
    rw [List.length_drop]
    omega
  have small := bigEndian_lt 4 _ back
  refine ⟨bytes.take 8, UInt32.ofNat (bigEndian (bytes.drop 8)), front, ?_⟩
  rw [UInt32.toNat_ofNat_of_lt' small, bigEndianBytes_bigEndian 4 _ back, List.take_append_drop]

/-- By induction on the attributes that are left: those that are passed are put in front of what is
found behind them. -/
theorem codeFront_of_codeAmong (pool : Pool) (length count : Nat) (cursor after : Cursor)
    (code : Bytes) (ran : codeAmong pool length count cursor = .ok (some code) after) :
    ∃ front : CodeFront, front.passed.length < count ∧
      pool.stringAt front.name = .ok Attribute.codeName ∧ code.length = length ∧
      cursor.rest = front.encode ++ (code ++ after.rest) := by
  induction count generalizing cursor with
  | zero => cases ran
  | succ count ih =>
      obtain ⟨name, _, behindName, rfl, nameRest, ran⟩ := Reads.u16.split ran
      obtain ⟨text, _, behindText, ⟨resolved, rfl⟩, textRest, ran⟩ := (Reads.ofExcept _).split ran
      rw [textRest, List.nil_append] at nameRest
      by_cases wanted : text = Attribute.codeName
      · rw [if_pos wanted] at ran
        obtain ⟨_, bytes, behindOpening, sized, openingRest, ran⟩ := (Reads.discard 12).split ran
        obtain ⟨found, _, behindCode, ⟨rfl, measured⟩, codeRest, ran⟩ :=
          (Reads.slice length).split ran
        obtain ⟨opening, codeLength, opened, rfl⟩ := exists_codeLength bytes sized
        cases ran
        refine ⟨⟨[], name, opening, codeLength, opened⟩, Nat.succ_pos count, wanted ▸ resolved,
          measured, ?_⟩
        rw [nameRest, openingRest, codeRest]
        simp only [CodeFront.encode, List.flatMap_nil, List.nil_append, List.append_assoc]
      · rw [if_neg wanted] at ran
        obtain ⟨size, _, behindSize, rfl, sizeRest, ran⟩ := Reads.u32.split ran
        obtain ⟨_, payload, behindPayload, sized, payloadRest, ran⟩ :=
          (Reads.discard size.toNat).split ran
        obtain ⟨fits, encoded⟩ := Attribute.exists_payload size payload sized
        obtain ⟨front, inside, named, measured, rest⟩ := ih behindPayload ran
        refine ⟨⟨⟨name, payload, fits⟩ :: front.passed, front.name, front.opening,
          front.codeLength, front.opened⟩, Nat.succ_lt_succ inside, named, measured, ?_⟩
        rw [nameRest, sizeRest, payloadRest, rest]
        simp only [CodeFront.encode, List.flatMap_cons, encoded, List.append_assoc]

end ClassFile

namespace Pool

/-- A member is declared as its two indices tell. -/
theorem declared_eq_ok_iff (pool : Pool) (kind : MemberKind) (owner : String)
    (nameIndex descriptorIndex : UInt16) (name descriptor : String) :
    pool.declared kind owner nameIndex descriptorIndex = .ok (name, descriptor) ↔
      pool.utf8 nameIndex = .ok name ∧ pool.utf8 descriptorIndex = .ok descriptor := by
  unfold declared
  cases pool.utf8 nameIndex with
  | error reason => simp [bind, Except.bind, Except.mapError]
  | ok found =>
      cases pool.utf8 descriptorIndex with
      | error reason => simp [bind, Except.bind, Except.mapError]
      | ok shape => simp [bind, Except.bind, Except.mapError, pure, Except.pure]

/-- What is stepped over as a pool is laid out as one. -/
theorem exists_layout_of_skip (cursor after : Cursor) (ran : skip cursor = .ok () after) :
    ∃ raw : RawPool, cursor.rest = raw.encode ++ after.rest := by
  rcases inStep_read cursor with ⟨pool, _, behind, read, skipped, _⟩ |
    ⟨_, _, _, _, _, failed, _⟩
  · obtain ⟨_, ⟨raw, _, rfl⟩, rest, _⟩ := (reads _ _ _).mp read
    rw [ran] at skipped
    cases skipped
    exact ⟨raw, rest⟩
  · rw [ran] at failed
    cases failed

end Pool

namespace ClassFile

theorem methodFront_of_methodCode (pool : Pool) (owner name descriptor : String)
    (length count : Nat) (cursor after : Cursor) (code : Bytes)
    (ran : methodCode pool owner name descriptor length count cursor = .ok (some code) after) :
    ∃ front : MethodFront, front.passed.length < count ∧ front.Tells pool name descriptor ∧
      code.length = length ∧ cursor.rest = front.encode ++ (code ++ after.rest) := by
  induction count generalizing cursor with
  | zero => cases ran
  | succ count ih =>
      obtain ⟨_, flagBytes, behindFlags, sized, flagsRest, ran⟩ := (Reads.discard 2).split ran
      obtain ⟨flags, rfl⟩ := exists_word_of_length_two flagBytes sized
      obtain ⟨nameIndex, _, behindName, rfl, nameRest, ran⟩ := Reads.u16.split ran
      obtain ⟨descriptorIndex, _, behindDescriptor, rfl, descriptorRest, ran⟩ := Reads.u16.split ran
      obtain ⟨⟨foundName, foundDescriptor⟩, _, behindDeclared, ⟨resolved, rfl⟩, declaredRest,
        ran⟩ := (Reads.ofExcept _).split ran
      rw [declaredRest, List.nil_append] at descriptorRest
      have told := (pool.declared_eq_ok_iff _ _ _ _ _ _).mp resolved
      dsimp only at ran
      by_cases wanted : foundName = name ∧ foundDescriptor = descriptor
      · rw [if_pos wanted] at ran
        obtain ⟨attributeCount, _, behindCount, rfl, countRest, ran⟩ := Reads.u16.split ran
        obtain ⟨front, inside, named, measured, rest⟩ := codeFront_of_codeAmong _ _ _ _ _ _ ran
        refine ⟨⟨[], flags, nameIndex, descriptorIndex, attributeCount, front, inside⟩,
          Nat.succ_pos count, ⟨wanted.1 ▸ told.1, wanted.2 ▸ told.2, named⟩, measured, ?_⟩
        rw [flagsRest, nameRest, descriptorRest, countRest, rest]
        simp only [MethodFront.encode, List.flatMap_nil, List.nil_append, List.append_assoc]
      · rw [if_neg wanted] at ran
        obtain ⟨_, _, behindTable, ⟨attributes, _, rfl⟩, tableRest, ran⟩ :=
          Attribute.reads_skipTable.split ran
        obtain ⟨front, inside, tells, measured, rest⟩ := ih behindTable ran
        refine ⟨⟨⟨flags, nameIndex, descriptorIndex, attributes⟩ :: front.passed, front.accessFlags,
          front.name, front.descriptor, front.attributeCount, front.code, front.inside⟩,
          Nat.succ_lt_succ inside, ⟨tells.name, tells.descriptor, tells.code⟩, measured, ?_⟩
        rw [flagsRest, nameRest, descriptorRest, tableRest, rest]
        simp only [MethodFront.encode, List.flatMap_cons, RawMember.encode, List.append_assoc]

theorem reads_skipFields (count : Nat) : Reads (skipFields count) (fun _ taken =>
    ∃ rows : List RawMember, rows.length = count ∧ True ∧
      taken = rows.flatMap RawMember.encode) := by
  apply Reads.intro
  · rintro _ _ ⟨rows, rfl, _, rfl⟩ position rest
    exact skipFields_flatMap rows position rest
  · induction count with
    | zero =>
        intro cursor _ after ran
        cases ran
        exact ⟨[], ⟨[], rfl, trivial, rfl⟩, rfl, rfl⟩
    | succ count ih =>
        intro cursor _ after ran
        obtain ⟨_, behindHead, ranHead, ran⟩ := (Reads.bind_eq_ok _ _ _ _ _).mp ran
        obtain ⟨_, behindTable, ranTable, ran⟩ := (Reads.bind_eq_ok _ _ _ _ _).mp ran
        obtain ⟨head, sized, headRest, headPosition⟩ := (Reads.discard _ _ _ _).mp ranHead
        obtain ⟨_, ⟨attributes, _, rfl⟩, tableRest, tablePosition⟩ :=
          (Attribute.reads_skipTable _ _ _).mp ranTable
        obtain ⟨_, ⟨rows, counted, _, rfl⟩, rest, position⟩ := ih _ _ _ ran
        obtain ⟨row, encoded⟩ := RawMember.exists_head head sized attributes
        refine ⟨_, ⟨row :: rows, congrArg (· + 1) counted, trivial, rfl⟩, ?_, ?_⟩
        · rw [headRest, tableRest, rest]
          simp only [List.flatMap_cons, encoded, List.append_assoc]
        · rw [position, tablePosition, headPosition]
          simp only [List.flatMap_cons, encoded, List.length_append, Nat.add_assoc]

/-- As many bytes as words take are as many words. -/
theorem reads_discardWords (count : Nat) : Reads (Read.discard (2 * count)) (fun _ taken =>
    ∃ indices : List UInt16, indices.length = count ∧ True ∧
      taken = indices.flatMap fun index => bigEndianBytes 2 index.toNat) := by
  refine (Reads.discard _).congr fun _ taken => ?_
  constructor
  · intro sized
    induction count generalizing taken with
    | zero => exact ⟨[], rfl, trivial, List.eq_nil_of_length_eq_zero sized⟩
    | succ count ih =>
        have frontSized : (taken.take 2).length = 2 := by
          rw [List.length_take]
          omega
        have backSized : (taken.drop 2).length = 2 * count := by
          rw [List.length_drop]
          omega
        obtain ⟨index, spelled⟩ := exists_word_of_length_two _ frontSized
        obtain ⟨indices, counted, _, rest⟩ := ih (taken.drop 2) backSized
        refine ⟨index :: indices, congrArg (· + 1) counted, trivial, ?_⟩
        rw [List.flatMap_cons, ← spelled, ← rest, List.take_append_drop]
  · rintro ⟨indices, rfl, _, rfl⟩
    exact length_encodeIndices indices

theorem tableFront_of_walk (pool : Pool) (owner name descriptor : String) (length : Nat)
    (cursor after : Cursor) (code : Bytes)
    (ran : (do
      Read.discard 6
      let interfaceCount ← Read.u16
      Read.discard (2 * interfaceCount.toNat)
      let fieldCount ← Read.u16
      skipFields fieldCount.toNat
      let methodCount ← Read.u16
      methodCode pool owner name descriptor length methodCount.toNat : Read (Option Bytes))
        cursor = .ok (some code) after) :
    ∃ front : TableFront, front.method.Tells pool name descriptor ∧ code.length = length ∧
      cursor.rest = front.encode ++ (code ++ after.rest) := by
  obtain ⟨_, identity, behindIdentity, identified, identityRest, ran⟩ :=
    (Reads.discard 6).split ran
  rw [← bind_assoc] at ran
  obtain ⟨_, _, behindInterfaces, ⟨interfaces, _, rfl⟩, interfacesRest, ran⟩ :=
    (Reads.counted reads_discardWords).split ran
  rw [← bind_assoc] at ran
  obtain ⟨_, _, behindFields, ⟨fields, _, rfl⟩, fieldsRest, ran⟩ :=
    (Reads.counted reads_skipFields).split ran
  obtain ⟨methodCount, _, behindCount, rfl, countRest, ran⟩ := Reads.u16.split ran
  obtain ⟨method, inside, tells, measured, rest⟩ := methodFront_of_methodCode _ _ _ _ _ _ _ _ _ ran
  refine ⟨⟨identity, interfaces, fields, methodCount, method, identified, inside⟩, tells, measured,
    ?_⟩
  rw [identityRest, interfacesRest, fieldsRest, countRest, rest]
  simp only [TableFront.encode, List.append_assoc]

/-- Whatever the bytes are, instructions come only from a place in a method, which the pool that the
walk goes by tells as it was asked for. That is the pool at hand, if there is one, and else the one
in the bytes. -/
theorem codePlace_of_readCode (pool? : Option Pool) (owner name descriptor : String)
    (length : Nat) (cursor after : Cursor) (code : Bytes)
    (ran : readCode pool? owner name descriptor length cursor = .ok (some code) after) :
    ∃ place : CodePlace, cursor.rest = place.encode ++ (code ++ after.rest) ∧
      code.length = length ∧ place.ToldBy (pool?.getD place.pool.pool) name descriptor := by
  obtain ⟨_, head, behindHead, headed, headRest, ran⟩ := (Reads.discard 8).split ran
  cases pool? with
  | some kept =>
      obtain ⟨_, behindPool, skipped, ran⟩ := (Reads.bind_eq_ok _ _ _ _ _).mp ran
      obtain ⟨pool, poolRest⟩ := Pool.exists_layout_of_skip behindHead behindPool skipped
      obtain ⟨tables, tells, measured, rest⟩ := tableFront_of_walk _ _ _ _ _ _ _ _ ran
      refine ⟨⟨head, pool, tables, headed⟩, ?_, measured, tells⟩
      rw [headRest, poolRest, rest]
      simp only [CodePlace.encode, List.append_assoc]
  | none =>
      obtain ⟨_, _, behindPool, ⟨pool, rfl, rfl⟩, poolRest, ran⟩ := Pool.reads.split ran
      obtain ⟨tables, tells, measured, rest⟩ := tableFront_of_walk _ _ _ _ _ _ _ _ ran
      refine ⟨⟨head, pool, tables, headed⟩, ?_, measured, tells⟩
      rw [headRest, poolRest, rest]
      simp only [CodePlace.encode, List.append_assoc]

/-- The pool in bytes that open as a class does is the one that is read again from them. -/
theorem rereadPool_eq_ok (cls : ClassFile) (head : Bytes) (pool : RawPool) (tail : Bytes)
    (headed : head.length = 8) :
    cls.rereadPool (head ++ (pool.encode ++ tail)) = .ok pool.pool := by
  have reads : Reads (do
      Read.discard 8
      during (.loadingPool cls.name) Pool.read : Read Pool) _ :=
    (Reads.discard 8).bind fun _ => Pool.reads.during (.loadingPool cls.name)
  refine (reads.run_eq_ok _ _).mpr ⟨head ++ pool.encode, tail, ?_, by rw [List.append_assoc]⟩
  exact ⟨(), head, pool.encode, headed, ⟨pool, rfl, rfl⟩, rfl⟩

end ClassFile

namespace ClassObject

variable {object : ClassObject} {registry : Registry} {files : FileTree} {name descriptor : String}
  {length : Nat} {code : Bytes}

/-- The bytes that instructions are loaded from, and where in them. -/
theorem codePlace_of_loadCode
    (ran : object.loadCode registry files name descriptor length = .ok (some code)) :
    ∃ (bytes : Bytes) (place : CodePlace) (rest : Bytes),
      registry.readClassOf files object.file = .ok (some bytes) ∧
      bytes = place.encode ++ (code ++ rest) ∧ code.length = length ∧
      place.ToldBy (object.pool.getD place.pool.pool) name descriptor := by
  unfold loadCode at ran
  cases found : registry.readClassOf files object.file with
  | error reason =>
      rw [found] at ran
      cases ran
  | ok bytes? =>
      rw [found] at ran
      cases bytes? with
      | none => cases ran
      | some bytes =>
          change ClassFile.carve _ _ _ _ _ _ = _ at ran
          rw [ClassFile.carve, Read.run_eq_outcome] at ran
          cases walked : ClassFile.readCode object.pool object.file.name name descriptor length
              (Cursor.start bytes) with
          | error reason after =>
              rw [walked] at ran
              cases ran
          | ok answer after =>
              rw [walked] at ran
              cases ran
              obtain ⟨place, spelled, measured, told⟩ :=
                ClassFile.codePlace_of_readCode _ _ _ _ _ _ _ _ walked
              exact ⟨bytes, place, after.rest, rfl, spelled, measured, told⟩

end ClassObject

end Classpath
