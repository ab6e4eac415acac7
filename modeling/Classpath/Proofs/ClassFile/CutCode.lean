import Classpath.Proofs.ClassFile.Carving
import Classpath.Proofs.ClassFile.Truncation

/-!
Code that is carved out of a class file that is cut off. Main statement: what is had of the bytes
that are left is what is had of all of them, or the bytes end; the end of the bytes is never taken
for the end of a table.
-/

set_option autoImplicit false

namespace Classpath

open Read (Steady)

namespace Constant

theorem steady_skipBody (tag : UInt8) (index : UInt16) : Steady (skipBody tag index) := by
  unfold skipBody
  split
  · exact Steady.u16.bind fun length => (Steady.discard length.toNat).bind_pure _
  any_goals exact (Steady.discard _).bind_pure _
  exact Steady.throw _

end Constant

namespace Pool

theorem steady_skipFrom (count index : UInt16) : Steady (skipFrom count index) := by
  induction index using Pool.skipFrom.induct count with
  | case1 index room ih =>
      rw [skipFrom, if_pos room]
      apply Steady.u8.bind
      intro tag
      apply (Constant.steady_skipBody tag index).bind
      intro wide
      exact ih wide
  | case2 index full =>
      rw [skipFrom, if_neg full]
      exact Steady.pure ()

theorem steady_skip : Steady skip :=
  (Steady.u16.during _).bind fun count => steady_skipFrom count 1

end Pool

namespace ClassFile

theorem steady_codeAmong (pool : Pool) (length count : Nat) :
    Steady (codeAmong pool length count) := by
  induction count with
  | zero => exact Steady.pure none
  | succ count ih =>
      apply Steady.u16.bind
      intro index
      apply (Steady.ofExcept (pool.stringAt index)).bind
      intro name
      split
      · exact (Steady.discard 12).bind fun _ => (Steady.slice length).bind_pure some
      · exact Steady.u32.bind fun attributeLength => (Steady.discard _).bind fun _ => ih

theorem steady_methodCode (pool : Pool) (owner name descriptor : String) (length count : Nat) :
    Steady (methodCode pool owner name descriptor length count) := by
  induction count with
  | zero => exact Steady.pure none
  | succ count ih =>
      apply (Steady.discard 2).bind
      intro _
      apply Steady.u16.bind
      intro nameIndex
      apply Steady.u16.bind
      intro descriptorIndex
      apply (Steady.ofExcept (pool.declared .method owner nameIndex descriptorIndex)).bind
      intro found
      dsimp only
      split
      · exact Steady.u16.bind fun attributeCount => steady_codeAmong pool length _
      · exact Attribute.steady_skipTable.bind fun _ => ih

theorem steady_skipFields (count : Nat) : Steady (skipFields count) := by
  induction count with
  | zero => exact Steady.pure ()
  | succ count ih =>
      exact (Steady.discard 6).bind fun _ => Attribute.steady_skipTable.bind fun _ => ih

/-- What is read behind the pool. -/
theorem steady_behindPool (pool : Pool) (owner name descriptor : String) (length : Nat) :
    Steady (do
      Read.discard 6
      let interfaceCount ← Read.u16
      Read.discard (2 * interfaceCount.toNat)
      let fieldCount ← Read.u16
      skipFields fieldCount.toNat
      let methodCount ← Read.u16
      methodCode pool owner name descriptor length methodCount.toNat) := by
  apply (Steady.discard 6).bind
  intro _
  apply Steady.u16.bind
  intro interfaceCount
  apply (Steady.discard _).bind
  intro _
  apply Steady.u16.bind
  intro fieldCount
  apply (steady_skipFields fieldCount.toNat).bind
  intro _
  exact Steady.u16.bind fun methodCount => steady_methodCode pool owner name descriptor length _

theorem steady_readCode (pool? : Option Pool) (owner name descriptor : String) (length : Nat) :
    Steady (readCode pool? owner name descriptor length) := by
  apply (Steady.discard 8).bind
  intro _
  have behind := fun pool => steady_behindPool pool owner name descriptor length
  cases pool? with
  | none => exact Pool.steady_read.bind behind
  | some pool => exact Pool.steady_skip.bind fun _ => (Steady.pure pool).bind behind

/-- As many bytes are carved as are asked for. -/
theorem length_of_carvedAt {bytes code : Bytes} {length : Nat} {start? : Option Nat}
    (carved : carvedAt bytes length start? = .ok (some code)) : code.length = length := by
  cases start? with
  | none => cases carved
  | some start =>
      rw [carvedAt] at carved
      by_cases enough : start + length ≤ bytes.length
      · rw [if_pos enough] at carved
        cases carved
        rw [List.length_take, List.length_drop]
        omega
      · rw [if_neg enough] at carved
        cases carved

theorem endOfBytes_of_carvedAt {bytes : Bytes} {length : Nat} {start? : Option Nat} {error : Error}
    (failed : carvedAt bytes length start? = .error error) : error.cause.EndOfBytes := by
  cases start? with
  | none => cases failed
  | some start =>
      rw [carvedAt] at failed
      by_cases enough : start + length ≤ bytes.length
      · rw [if_pos enough] at failed
        cases failed
      · rw [if_neg enough] at failed
        cases failed
        exact .truncated length (bytes.length - start)

end ClassFile

namespace ClassObject

variable {registry : Registry} {files : FileTree} {bytes : Bytes}

theorem loadCode_of_bytes (object : ClassObject)
    (behind : registry.readClassOf files object.file = .ok (some bytes))
    (name descriptor : String) (length : Nat) :
    object.loadCode registry files name descriptor length =
      object.file.carve object.pool bytes name descriptor length := by
  rw [loadCode, behind]
  rfl

/-- What is carved is as long as is wanted, and where nothing can be, the bytes end. -/
theorem loadCode_of_parsed {cls : ClassFile} {pool : Pool} {kept : Option Pool} {own : Bool}
    {source : String} (parsed : ClassFile.parse bytes own source = .ok (cls, pool))
    (resident : kept = some pool ∨ kept = none)
    (behind : registry.readClassOf files cls = .ok (some bytes)) (name descriptor : String)
    (length : Nat) :
    let outcome := (⟨cls, kept⟩ : ClassObject).loadCode registry files name descriptor length
    (∀ code, outcome = .ok (some code) → code.length = length) ∧
      ∀ error, outcome = .error error → error.cause.EndOfBytes := by
  intro outcome
  obtain ⟨raw, tail, resolves, _, _, _, _, rfl, rfl⟩ :=
    (ClassFile.parse_eq_ok_iff _ _ _ _ _).mp parsed
  have carved : outcome = (ClassFile.carvedAt (raw.encode ++ tail) length
      (raw.codeStart? name descriptor)).mapError
        (·.within (.loadingBytecode cls.name name descriptor)) :=
    loadCode_eq_carvedAt raw resolves tail behind resident name descriptor length
  rw [carved]
  cases found : ClassFile.carvedAt (raw.encode ++ tail) length (raw.codeStart? name descriptor) with
  | ok code? =>
      constructor
      · intro code same
        cases same
        exact ClassFile.length_of_carvedAt found
      · intro error failed
        cases failed
  | error fault =>
      constructor
      · intro code same
        cases same
      · intro error failed
        have ended := ClassFile.endOfBytes_of_carvedAt found
        cases failed
        rwa [Error.cause_within]

/-- Of the first of some bytes the same code is had as of all of them, or the bytes end; so no
method that has code seems to have none, and no other bytes are had, nor fewer than are wanted.
Where all of the bytes parse, that they end is the only fault there is. -/
theorem loadCode_of_cut_bytes (bytes : Bytes) (own : Bool) (source : String) (cls : ClassFile)
    (pool : Pool) (parsed : ClassFile.parse bytes own source = .ok (cls, pool))
    (kept : Option Pool) (resident : kept = some pool ∨ kept = none)
    (registry cutRegistry : Registry) (files cutFiles : FileTree) (count : Nat)
    (whole : registry.readClassOf files cls = .ok (some bytes))
    (cut : cutRegistry.readClassOf cutFiles cls = .ok (some (bytes.take count)))
    (name descriptor : String) (length : Nat) :
    let object : ClassObject := ⟨cls, kept⟩
    let outcome := object.loadCode registry files name descriptor length
    let cutOutcome := object.loadCode cutRegistry cutFiles name descriptor length
    (cutOutcome = outcome ∨ ∃ error, cutOutcome = .error error ∧ error.cause.EndOfBytes) ∧
      (cutOutcome = .ok none → outcome = .ok none) ∧
      (∀ code, cutOutcome = .ok (some code) →
        outcome = .ok (some code) ∧ code.length = length) ∧
      ∀ error, cutOutcome = .error error → error.cause.EndOfBytes := by
  intro object outcome cutOutcome
  have wholly : outcome = cls.carve kept bytes name descriptor length :=
    loadCode_of_bytes object whole name descriptor length
  have partly : cutOutcome = cls.carve kept (bytes.take count) name descriptor length :=
    loadCode_of_bytes object cut name descriptor length
  obtain ⟨sized, ends⟩ := loadCode_of_parsed parsed resident whole name descriptor length
  rcases (ClassFile.steady_readCode kept cls.name name descriptor length).run_take bytes count with
    same | ⟨error, failed, ended⟩
  · have one : cutOutcome = outcome := by
      rw [partly, wholly, ClassFile.carve, same, ClassFile.carve]
    rw [one]
    exact ⟨Or.inl rfl, id, fun code found => ⟨found, sized code found⟩, ends⟩
  · have stopped : cutOutcome =
        .error (error.within (.loadingBytecode cls.name name descriptor)) := by
      rw [partly, ClassFile.carve, failed]
      rfl
    have last : (error.within (.loadingBytecode cls.name name descriptor)).cause.EndOfBytes := by
      rwa [Error.cause_within]
    rw [stopped]
    refine ⟨Or.inr ⟨_, rfl, last⟩, ?_, ?_, ?_⟩
    · intro absent
      cases absent
    · intro code found
      cases found
    · intro other same
      cases same
      exact last

/-- The one byte of code in the specimen is loaded, but not from the bytes in front of it. -/
theorem loadCode_of_cut_bytes_specimen : ∃ cls pool,
    ClassFile.parse RawClass.specimen.encode true "A.class" = .ok (cls, pool) ∧
      let cutFiles := RawClass.filesWith (RawClass.specimen.encode.take 109)
      let object : ClassObject := ⟨cls, none⟩
      object.loadCode specimenRegistry RawClass.specimenFiles "m" "()V" 1 = .ok (some [0xB1]) ∧
        ∃ error, object.loadCode specimenRegistry cutFiles "m" "()V" 1 = .error error ∧
          error.cause.EndOfBytes := by
  obtain ⟨cls, parsed, _, named, sourced⟩ := ClassFile.exists_parse_specimen
  have whole : specimenRegistry.readClassOf RawClass.specimenFiles cls =
      .ok (some RawClass.specimen.encode) :=
    specimenRegistry_readClassOf RawClass.specimen.encode sourced
  have cut := specimenRegistry_readClassOf (RawClass.specimen.encode.take 109) sourced
  have read : ((ClassFile.readCode none "A" "m" "()V" 1).run RawClass.specimen.encode).toOption =
      some (some [0xB1]) := by
    decide +kernel
  have readCut : ((ClassFile.readCode none "A" "m" "()V" 1).run
      (RawClass.specimen.encode.take 109)).toOption = none := by
    decide +kernel
  have loaded := loadCode_of_bytes ⟨cls, none⟩ whole "m" "()V" 1
  have cutLoaded := loadCode_of_bytes ⟨cls, none⟩ cut "m" "()V" 1
  rw [ClassFile.carve, named] at loaded cutLoaded
  obtain ⟨alike, _⟩ := loadCode_of_cut_bytes _ true "A.class" cls _ parsed none (Or.inr rfl)
    specimenRegistry specimenRegistry RawClass.specimenFiles _ 109 whole cut "m" "()V" 1
  cases ran : (ClassFile.readCode none "A" "m" "()V" 1).run RawClass.specimen.encode with
  | error error =>
      rw [ran] at read
      cases read
  | ok code =>
      rw [ran] at read loaded
      cases read
      refine ⟨cls, _, parsed, loaded, alike.resolve_left ?_⟩
      intro same
      rw [loaded, cutLoaded] at same
      cases cutRan : (ClassFile.readCode none "A" "m" "()V" 1).run
          (RawClass.specimen.encode.take 109) with
      | error error =>
          rw [cutRan] at same
          cases same
      | ok code =>
          rw [cutRan] at readCut
          cases readCut

end ClassObject

end Classpath
