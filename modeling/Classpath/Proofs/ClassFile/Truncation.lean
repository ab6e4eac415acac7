import Classpath.Proofs.ClassFile.Grammar
import Classpath.Proofs.Steady

/-!
Class files that are cut off. Main statement: the bytes of a class end where its method table does.
What is behind them makes no difference to the class but for the hash, and without the last of them,
or any more, there are too few bytes, which is the only fault that is found.
-/

set_option autoImplicit false

namespace Classpath

open Read (Steady)

namespace Constant

theorem steady_readBody (tag : UInt8) (index : UInt16) : Steady (readBody tag index) := by
  unfold readBody
  split
  · exact Steady.u16.bind fun length => (Steady.slice length.toNat).bind_pure _
  · exact Steady.i32.bind_pure _
  · exact Steady.u32.bind_pure _
  · exact Steady.i64.bind_pure _
  · exact Steady.u64.bind_pure _
  · exact Steady.u16.bind_pure _
  · exact Steady.u16.bind_pure _
  · exact Steady.u16.bind fun owner => Steady.u16.bind_pure _
  · exact Steady.u16.bind fun owner => Steady.u16.bind_pure _
  · exact Steady.u16.bind fun owner => Steady.u16.bind_pure _
  · exact Steady.u16.bind fun name => Steady.u16.bind_pure _
  · exact Steady.u8.bind fun kind => Steady.u16.bind_pure _
  · exact Steady.u16.bind_pure _
  · exact Steady.u16.bind fun bootstrap => Steady.u16.bind_pure _
  · exact Steady.u16.bind fun bootstrap => Steady.u16.bind_pure _
  · exact Steady.u16.bind_pure _
  · exact Steady.u16.bind_pure _
  · exact Steady.throw _

theorem steady_read (index : UInt16) : Steady (read index) :=
  Steady.u8.bind fun tag => steady_readBody tag index

end Constant

namespace Pool

theorem steady_readFrom (count index : UInt16) (entries : Array (Option Constant)) :
    Steady (readFrom count index entries) := by
  induction index, entries using Pool.readFrom.induct count with
  | case1 index entries room ihWide ihNarrow =>
      rw [readFrom, if_pos room]
      apply ((Constant.steady_read index).during _).bind
      intro constant
      dsimp only
      split
      · exact ihWide constant
      · exact ihNarrow constant
  | case2 index entries full =>
      rw [readFrom, if_neg full]
      exact Steady.pure entries

theorem steady_read : Steady read :=
  (Steady.u16.during _).bind fun count => (steady_readFrom count 1 #[none]).bind_pure _

end Pool

namespace Attribute

theorem steady_skipMany (count : Nat) : Steady (skipMany count) := by
  induction count with
  | zero => exact Steady.pure ()
  | succ count ih =>
      exact (Steady.discard 2).bind fun _ => Steady.u32.bind fun length =>
        (Steady.discard length.toNat).bind fun _ => ih

theorem steady_skipTable : Steady skipTable :=
  Steady.u16.bind fun count => steady_skipMany count.toNat

theorem steady_codeLengthAmong (pool : Pool) (count : Nat) (found : Option UInt32) :
    Steady (codeLengthAmong pool count found) := by
  induction count generalizing found with
  | zero => exact Steady.pure found
  | succ count ih =>
      apply Steady.u16.bind
      intro index
      apply (Steady.ofExcept (pool.utf8 index)).bind
      intro name
      apply Steady.u32.bind
      intro length
      dsimp only
      split
      · have payload : Steady (do
            Read.discard 4
            let codeLength ← Read.u32
            Read.discard (length.toNat - 8)
            codeLengthAmong pool count (some codeLength)) :=
          (Steady.discard 4).bind fun _ => Steady.u32.bind fun codeLength =>
            (Steady.discard _).bind fun _ => ih (some codeLength)
        split
        · exact (Steady.throw _).bind fun _ => payload
        · exact payload
      · exact (Steady.discard _).bind fun _ => ih found

theorem steady_codeLength (pool : Pool) : Steady (codeLength pool) :=
  Steady.u16.bind fun count => steady_codeLengthAmong pool count.toNat none

end Attribute

namespace ClassFile

theorem steady_readTable {α : Type} {item : Read α} (steady : Steady item) :
    Steady (readTable item) :=
  Steady.u16.bind fun count => steady.times count.toNat

theorem steady_readField (pool : Pool) (owner : String) : Steady (readField pool owner) :=
  Steady.u16.bind fun _ => Steady.u16.bind fun _ => Steady.u16.bind fun _ =>
    (Steady.ofExcept _).bind fun _ => Attribute.steady_skipTable.bind_pure _

theorem steady_readMethod (pool : Pool) (owner : String) : Steady (readMethod pool owner) :=
  Steady.u16.bind fun _ => Steady.u16.bind fun _ => Steady.u16.bind fun _ =>
    (Steady.ofExcept _).bind fun _ => (Attribute.steady_codeLength pool).bind_pure _

theorem steady_superName {α : Type} (pool : Pool) (index : UInt16)
    {next : Option String → Read α} (steady : ∀ superName, Steady (next superName)) :
    Steady (do
      let superName ← if index = 0 then pure none else some <$> ofExcept (pool.className index)
      next superName) := by
  dsimp only
  split
  · exact (Steady.pure none).bind steady
  · rw [bind_map_left]
    exact (Steady.ofExcept _).bind fun name => steady (some name)

/-- What is read behind the magic number. -/
theorem steady_behindMagic (source contentHash : String) (own : Bool) : Steady (do
    let minorVersion ← Read.u16
    let majorVersion ← Read.u16
    let pool ← Pool.read
    let accessFlags ← Read.u16
    let thisIndex ← Read.u16
    let superIndex ← Read.u16
    let name ← ofExcept (pool.className thisIndex)
    let superName ←
      if superIndex = 0 then pure none
      else some <$> ofExcept (pool.className superIndex)
    let interfaces ← readTable (do ofExcept (pool.className (← Read.u16)))
    let fields ← readTable (readField pool name)
    let methods ← readTable (readMethod pool name)
    return ((⟨name, superName, interfaces, accessFlags, minorVersion, majorVersion, fields,
      methods, source, contentHash, own⟩ : ClassFile), pool)) := by
  apply Steady.u16.bind
  intro minorVersion
  apply Steady.u16.bind
  intro majorVersion
  apply Pool.steady_read.bind
  intro pool
  apply Steady.u16.bind
  intro accessFlags
  apply Steady.u16.bind
  intro thisIndex
  apply Steady.u16.bind
  intro superIndex
  apply (Steady.ofExcept (pool.className thisIndex)).bind
  intro name
  apply steady_superName pool superIndex
  intro superName
  have interfaces : Steady (do ofExcept (pool.className (← Read.u16)) : Read String) :=
    Steady.u16.bind fun index => Steady.ofExcept (pool.className index)
  exact (steady_readTable interfaces).bind fun _ =>
    (steady_readTable (steady_readField pool name)).bind fun _ =>
      (steady_readTable (steady_readMethod pool name)).bind_pure _

theorem steady_read (source contentHash : String) (own : Bool) :
    Steady (read source contentHash own) := by
  apply Steady.u32.bind
  intro found
  dsimp only
  split
  · exact (Steady.throw _).bind fun _ => steady_behindMagic source contentHash own
  · exact steady_behindMagic source contentHash own

/-- Too few bytes for a layout are not parsed, for want of bytes. -/
theorem parse_eq_error_of_cut {raw : RawClass} (resolves : raw.Resolvable) {kept : Nat}
    (short : kept < raw.encode.length) (own : Bool) (source : String) :
    ∃ error, parse (raw.encode.take kept) own source = .error error ∧
      error.cause.EndOfBytes := by
  generalize hashed : Digest.Sha256.hexDigest (raw.encode.take kept) = contentHash
  obtain ⟨cls, describes, sourced, rehashed, owned⟩ :=
    resolves.exists_class source contentHash own
  have spelled : ∃ other : RawClass, other.Resolvable ∧ other.Describes cls ∧
      cls.source = source ∧ cls.contentHash = contentHash ∧ cls.own = own ∧
        raw.pool.pool = other.pool.pool ∧ raw.encode = other.encode :=
    ⟨raw, resolves, describes, sourced, rehashed, owned, rfl, rfl⟩
  obtain ⟨error, after, stopped, ended⟩ := (steady_read source contentHash own).cut
    (reads_read source contentHash own) (cls, raw.pool.pool) spelled short 0
  refine ⟨error.within (.parsingClass source), ?_, ?_⟩
  · rw [parse, hashed, Read.run, Cursor.start, stopped]
    rfl
  · rwa [Error.cause_within]

/-- A class that is parsed ends at some length, that of its one layout. With anything else behind
that the same class is parsed, but for the hash, and with less than that nothing is, for want of
bytes. -/
theorem parse_ends_with_methods (bytes : Bytes) (own : Bool) (source : String) (cls : ClassFile)
    (pool : Pool) (parsed : parse bytes own source = .ok (cls, pool)) :
    ∃ (raw : RawClass) (length : Nat), raw.Resolvable ∧ raw.Describes cls ∧
      bytes.take length = raw.encode ∧ length ≤ bytes.length ∧
      (∀ tail : Bytes, parse (bytes.take length ++ tail) own source =
        .ok ({ cls with
          contentHash := Digest.Sha256.hexDigest (bytes.take length ++ tail) }, pool)) ∧
      ∀ kept < length, ∃ error, parse (bytes.take kept) own source = .error error ∧
        error.cause.EndOfBytes := by
  obtain ⟨raw, behind, resolves, describes, sourced, _, owned, pooled, rfl⟩ :=
    (parse_eq_ok_iff _ _ _ _ _).mp parsed
  have taken : (raw.encode ++ behind).take raw.encode.length = raw.encode := List.take_left
  refine ⟨raw, raw.encode.length, resolves, describes, taken, ?_, ?_, ?_⟩
  · rw [List.length_append]
    exact Nat.le_add_right _ _
  · intro tail
    rw [taken]
    exact (parse_eq_ok_iff _ _ _ _ _).mpr ⟨raw, tail, resolves, { describes with }, sourced, rfl,
      owned, pooled, rfl⟩
  · intro kept short
    rw [List.take_append_of_le_length (Nat.le_of_lt short)]
    exact parse_eq_error_of_cut resolves short own source

/-- The specimen with a byte behind it ends before that byte. -/
theorem parse_ends_with_methods_specimen : ∃ cls pool,
    parse (RawClass.specimen.encode ++ [7]) true "A.class" = .ok (cls, pool) ∧
      ∃ length ≤ (RawClass.specimen.encode ++ [7]).length,
        (∀ tail : Bytes, ∃ contentHash,
          parse ((RawClass.specimen.encode ++ [7]).take length ++ tail) true "A.class" =
            .ok ({ cls with contentHash := contentHash }, pool)) ∧
        ∀ kept < length, ∃ error,
          parse ((RawClass.specimen.encode ++ [7]).take kept) true "A.class" = .error error ∧
            error.cause.EndOfBytes := by
  obtain ⟨cls, describes, sourced, hashed, owned⟩ := RawClass.specimen_resolvable.exists_class
    "A.class" (Digest.Sha256.hexDigest (RawClass.specimen.encode ++ [7])) true
  have parsed := (parse_eq_ok_iff _ _ _ _ _).mpr ⟨RawClass.specimen, [7],
    RawClass.specimen_resolvable, describes, sourced, hashed, owned, rfl, rfl⟩
  obtain ⟨raw, length, _, _, _, bounded, behind, cut⟩ :=
    parse_ends_with_methods _ true "A.class" cls _ parsed
  exact ⟨cls, _, parsed, length, bounded, fun tail => ⟨_, behind tail⟩, cut⟩

end ClassFile

end Classpath
