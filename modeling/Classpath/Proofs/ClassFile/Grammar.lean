import Classpath.Files.Tree
import Classpath.Proofs.ClassFile.Header
import Classpath.Proofs.ClassFile.Unambiguous

/-!
The grammar of class files. Main statement: what is parsed are exactly the layouts that resolve,
with anything behind them, and each is parsed into what it describes; no run of bytes has two
layouts.
-/

set_option autoImplicit false

namespace Classpath

/-- Rows that each mean something mean something together. -/
theorem exists_forall₂ {ρ α : Type} {means : ρ → α → Prop} (rows : List ρ)
    (each : ∀ row ∈ rows, ∃ value, means row value) : ∃ values, List.Forall₂ means rows values := by
  induction rows with
  | nil => exact ⟨[], .nil⟩
  | cons row rows ih =>
      obtain ⟨value, meant⟩ := each row List.mem_cons_self
      obtain ⟨values, related⟩ := ih fun other member => each other (List.mem_cons_of_mem row member)
      exact ⟨value :: values, .cons meant related⟩

theorem RawMember.ResolvesAsField.exists_field {pool : RawPool} {row : RawMember}
    (resolves : row.ResolvesAsField pool) : ∃ field, row.DescribesField pool field := by
  obtain ⟨name, named⟩ := Option.isSome_iff_exists.mp resolves.name
  obtain ⟨descriptor, shaped⟩ := Option.isSome_iff_exists.mp resolves.descriptor
  exact ⟨⟨row.accessFlags, name, descriptor⟩, rfl, named, shaped⟩

theorem RawMember.ResolvesAsMethod.exists_method {pool : RawPool} {row : RawMember}
    (resolves : row.ResolvesAsMethod pool) : ∃ method, row.DescribesMethod pool method := by
  obtain ⟨name, named⟩ := Option.isSome_iff_exists.mp resolves.name
  obtain ⟨descriptor, shaped⟩ := Option.isSome_iff_exists.mp resolves.descriptor
  exact ⟨⟨row.accessFlags, name, descriptor, _⟩, rfl, named, shaped, rfl⟩

namespace RawClass

/-- A layout that resolves describes a class, whatever its bytes were found behind. -/
theorem Resolvable.exists_class {raw : RawClass} (resolves : raw.Resolvable)
    (source contentHash : String) (own : Bool) : ∃ cls : ClassFile, raw.Describes cls ∧
      cls.source = source ∧ cls.contentHash = contentHash ∧ cls.own = own := by
  obtain ⟨name, named⟩ := Option.isSome_iff_exists.mp resolves.thisClass
  obtain ⟨interfaces, interfacesNamed⟩ := exists_forall₂ raw.interfaces.rows fun index member =>
    Option.isSome_iff_exists.mp (resolves.interfaces index member)
  obtain ⟨fields, fieldsDescribed⟩ := exists_forall₂ raw.fields.rows fun row member =>
    (resolves.fields row member).exists_field
  obtain ⟨methods, methodsDescribed⟩ := exists_forall₂ raw.methods.rows fun row member =>
    (resolves.methods row member).exists_method
  exact ⟨⟨name, _, interfaces, raw.accessFlags, raw.minorVersion, raw.majorVersion, fields, methods,
    source, contentHash, own⟩, ⟨rfl, rfl, rfl, named, rfl, interfacesNamed, fieldsDescribed,
      methodsDescribed⟩, rfl, rfl, rfl⟩

theorem Describes.superName_eq_none_iff {raw : RawClass} {cls : ClassFile}
    (describes : raw.Describes cls) (resolves : raw.Resolvable) :
    cls.superName = none ↔ raw.superClass = 0 := by
  rw [describes.superName]
  by_cases absent : raw.superClass = 0
  · rw [if_pos absent]
    exact iff_of_true rfl absent
  · obtain ⟨name, named⟩ := Option.isSome_iff_exists.mp (resolves.superClass absent)
    rw [if_neg absent, named]
    exact iff_of_false nofun absent

/-- A class that has one of each table row. The second place of a long constant is skipped over,
the field's attribute is named by that constant, and the code is behind another attribute. -/
def specimen : RawClass where
  minorVersion := 0
  majorVersion := 52
  pool := {
    count := 10
    constants := [.text [0x41] (by decide), .other (.classRef 1) nofun,
      .text [0x43, 0x6F, 0x64, 0x65] (by decide), .other (.long 7) nofun,
      .text [0x6D] (by decide), .text [0x28, 0x29, 0x56] (by decide),
      .text [0x42] (by decide), .other (.classRef 8) nofun]
    filled := by decide }
  accessFlags := 0x21
  thisClass := 2
  superClass := 9
  interfaces := ⟨[9], by decide⟩
  fields := ⟨[⟨2, 6, 7, ⟨[⟨4, [1, 2], by decide⟩], by decide⟩⟩], by decide⟩
  methods := ⟨[⟨1, 6, 7, ⟨[⟨1, [5], by decide⟩,
    ⟨3, [0, 2, 0, 1, 0, 0, 0, 1, 0xB1, 0, 0, 0, 0], by decide⟩], by decide⟩⟩], by decide⟩

theorem specimen_resolvable : specimen.Resolvable where
  thisClass := by rfl
  superClass := fun _ => by rfl
  interfaces := by
    intro index member
    cases List.mem_singleton.mp member
    rfl
  fields := by
    intro row member
    cases List.mem_singleton.mp member
    exact ⟨rfl, rfl⟩
  methods := by
    intro row member
    cases List.mem_singleton.mp member
    refine ⟨rfl, rfl, ?_, ?_⟩
    · decide
    · decide +kernel

/-- What the class and its method are called. -/
theorem specimen_called : specimen.pool.className? specimen.thisClass = some "A" ∧
    specimen.pool.text? 6 = some "m" ∧ specimen.pool.text? 7 = some "()V" := by
  decide +kernel

end RawClass

theorem RawConstant.classRef_plain (index : UInt16) (text : String) :
    Constant.classRef index ≠ .utf8 text := nofun

theorem RawPool.fills_onlyName (payload : Bytes) (fits : payload.length < 65536) :
    Fills (3 : UInt16).toNat 1
      [.text payload fits, .other (.classRef 1) (RawConstant.classRef_plain 1)] :=
  ⟨(by decide : 1 < 3), (by decide : 2 < 3), Nat.le_refl 3⟩

/-- A class of a name and nothing else. -/
def RawClass.onlyName (payload : Bytes) (fits : payload.length < 65536) : RawClass where
  minorVersion := 0
  majorVersion := 52
  pool := {
    count := 3
    constants := [.text payload fits, .other (.classRef 1) (RawConstant.classRef_plain 1)]
    filled := RawPool.fills_onlyName payload fits }
  accessFlags := 0x21
  thisClass := 2
  superClass := 0
  interfaces := ⟨[], by decide⟩
  fields := ⟨[], by decide⟩
  methods := ⟨[], by decide⟩

theorem RawClass.onlyName_resolvable (payload : Bytes) (fits : payload.length < 65536) :
    (onlyName payload fits).Resolvable where
  thisClass := by rfl
  superClass := fun other => absurd rfl other
  interfaces := nofun
  fields := nofun
  methods := nofun

theorem RawClass.className?_onlyName (payload : Bytes) (fits : payload.length < 65536) :
    (onlyName payload fits).pool.className? 2 = some (Text.ModifiedUtf8.decode payload) := rfl

/-- A class whose name is one byte. -/
def RawClass.letter (byte : UInt8) : RawClass := .onlyName [byte] (by simp)

theorem RawClass.letter_resolvable (byte : UInt8) : (letter byte).Resolvable :=
  onlyName_resolvable [byte] _

theorem RawClass.className?_letter {byte : UInt8} {name : String}
    (spells : Text.ModifiedUtf8.decode [byte] = name) :
    (letter byte).pool.className? (letter byte).thisClass = some name :=
  spells ▸ className?_onlyName [byte] _

namespace RawClass

/-- A tree of files that holds one class file and nothing else. -/
def filesWith (content : Bytes) : FileTree := ⟨.directory [("A.class", .file content)], []⟩

theorem filesWith_find (content : Bytes) :
    (filesWith content).find "A.class" = .ok (.file content) := by
  have pieces : Path.pieces "A.class" = [("A.class" : Path.Text)] := by decide
  rw [FileTree.find, if_neg (by decide), if_neg (by decide),
    if_neg (by decide), if_neg (by decide), pieces]
  rfl

theorem filesWith_read (content : Bytes) : (filesWith content).read "A.class" = .ok content := by
  rw [FileTree.read, filesWith_find]

/-- A tree of files that holds the specimen and nothing else. -/
def specimenFiles : FileTree := ⟨.directory [("A.class", .file specimen.encode)], []⟩

end RawClass

namespace ClassFile

theorem parse_eq_ok_iff (bytes : Bytes) (own : Bool) (source : String) (cls : ClassFile)
    (pool : Pool) :
    parse bytes own source = .ok (cls, pool) ↔ ∃ (raw : RawClass) (tail : Bytes),
      raw.Resolvable ∧ raw.Describes cls ∧ cls.source = source ∧
        cls.contentHash = Digest.Sha256.hexDigest bytes ∧ cls.own = own ∧ pool = raw.pool.pool ∧
        bytes = raw.encode ++ tail := by
  have ran := (reads_read source (Digest.Sha256.hexDigest bytes) own).run_eq_ok bytes (cls, pool)
  have unwrapped : parse bytes own source = .ok (cls, pool) ↔
      Read.run (read source (Digest.Sha256.hexDigest bytes) own) bytes = .ok (cls, pool) := by
    unfold parse
    cases Read.run (read source (Digest.Sha256.hexDigest bytes) own) bytes with
    | ok answer => rfl
    | error reason => simp only [Except.mapError, reduceCtorEq]
  rw [unwrapped, ran]
  constructor
  · rintro ⟨_, tail, ⟨raw, resolves, describes, sourced, hashed, owned, pooled, rfl⟩, rfl⟩
    exact ⟨raw, tail, resolves, describes, sourced, hashed, owned, pooled, rfl⟩
  · rintro ⟨raw, tail, resolves, describes, sourced, hashed, owned, pooled, rfl⟩
    exact ⟨raw.encode, tail, ⟨raw, resolves, describes, sourced, hashed, owned, pooled, rfl⟩, rfl⟩

/-- A class keeps whose it is and where it came from. -/
theorem parse_origin {bytes : Bytes} {own : Bool} {source : String} {cls : ClassFile} {pool : Pool}
    (parsed : parse bytes own source = .ok (cls, pool)) : cls.own = own ∧ cls.source = source := by
  obtain ⟨_, _, _, _, sourced, _, owned, _⟩ := (parse_eq_ok_iff _ _ _ _ _).mp parsed
  exact ⟨owned, sourced⟩

theorem parse_contentHash {bytes : Bytes} {own : Bool} {source : String} {cls : ClassFile}
    {pool : Pool} (parsed : parse bytes own source = .ok (cls, pool)) :
    cls.contentHash = Digest.Sha256.hexDigest bytes := by
  obtain ⟨_, _, _, _, _, hashed, _⟩ := (parse_eq_ok_iff _ _ _ _ _).mp parsed
  exact hashed

/-- What resolves is parsed, whatever stands behind it. -/
theorem exists_parse {raw : RawClass} (resolves : raw.Resolvable) (tail : Bytes) (own : Bool)
    (source : String) : ∃ cls, parse (raw.encode ++ tail) own source = .ok (cls, raw.pool.pool) ∧
      raw.Describes cls ∧ cls.source = source := by
  obtain ⟨cls, describes, sourced, hashed, owned⟩ :=
    resolves.exists_class source (Digest.Sha256.hexDigest (raw.encode ++ tail)) own
  have parsed := (parse_eq_ok_iff (raw.encode ++ tail) own source cls raw.pool.pool).mpr
    ⟨raw, tail, resolves, describes, sourced, hashed, owned, rfl, rfl⟩
  exact ⟨cls, parsed, describes, sourced⟩

theorem exists_parse_specimen : ∃ cls,
    parse RawClass.specimen.encode true "A.class" = .ok (cls, RawClass.specimen.pool.pool) ∧
      RawClass.specimen.Describes cls ∧ cls.name = "A" ∧ cls.source = "A.class" := by
  obtain ⟨cls, parsed, describes, sourced⟩ :=
    exists_parse RawClass.specimen_resolvable [] true "A.class"
  rw [List.append_nil] at parsed
  have named : cls.name = "A" :=
    Option.some.inj (describes.name.symm.trans RawClass.specimen_called.1)
  exact ⟨cls, parsed, describes, named, sourced⟩

/-- Each layout that resolves is parsed into what it describes, whatever stands behind it, and
whatever is parsed has exactly one layout, which resolves and describes the answer. -/
theorem parse_exact_grammar :
    (∀ (raw : RawClass) (tail : Bytes) (own : Bool) (source : String), raw.Resolvable →
      ∃ cls pool, parse (raw.encode ++ tail) own source = .ok (cls, pool) ∧ raw.Describes cls ∧
        (cls.superName = none ↔ raw.superClass = 0) ∧ cls.source = source ∧ cls.own = own ∧
        cls.contentHash = Digest.Sha256.hexDigest (raw.encode ++ tail) ∧
        ∀ index, pool.get? index = (raw.pool.constant? index).map RawConstant.decoded) ∧
    ∀ (bytes : Bytes) (own : Bool) (source : String) (cls : ClassFile) (pool : Pool),
      parse bytes own source = .ok (cls, pool) → ∃ (raw : RawClass) (tail : Bytes),
        raw.Resolvable ∧ bytes = raw.encode ++ tail ∧ raw.Describes cls ∧
        ∀ (other : RawClass) (rest : Bytes), bytes = other.encode ++ rest →
          other = raw ∧ rest = tail := by
  constructor
  · intro raw tail own source resolves
    obtain ⟨cls, describes, sourced, hashed, owned⟩ :=
      resolves.exists_class source (Digest.Sha256.hexDigest (raw.encode ++ tail)) own
    refine ⟨cls, raw.pool.pool, ?_, describes, describes.superName_eq_none_iff resolves, sourced,
      owned, hashed, raw.pool.get?_pool⟩
    exact (parse_eq_ok_iff _ _ _ _ _).mpr
      ⟨raw, tail, resolves, describes, sourced, hashed, owned, rfl, rfl⟩
  · intro bytes own source cls pool parsed
    obtain ⟨raw, tail, resolves, describes, _, _, _, _, rfl⟩ :=
      (parse_eq_ok_iff _ _ _ _ _).mp parsed
    exact ⟨raw, tail, resolves, rfl, describes, fun other rest same =>
      PrefixFree.rawClass _ _ _ _ same.symm⟩

theorem parse_specimen : RawClass.specimen.Resolvable ∧ ∃ cls pool,
    parse (RawClass.specimen.encode ++ [0]) true "A.class" = .ok (cls, pool) ∧ cls.name = "A" ∧
      ∃ raw : RawClass, raw.Describes cls ∧ RawClass.specimen = raw := by
  refine ⟨RawClass.specimen_resolvable, ?_⟩
  obtain ⟨cls, pool, parsed, describes, _⟩ :=
    parse_exact_grammar.1 RawClass.specimen [0] true "A.class" RawClass.specimen_resolvable
  obtain ⟨raw, _, _, _, described, only⟩ := parse_exact_grammar.2 _ _ _ _ _ parsed
  have named : cls.name = "A" :=
    Option.some.inj (describes.name.symm.trans RawClass.specimen_called.1)
  exact ⟨cls, pool, parsed, named, raw, described, (only RawClass.specimen [0] rfl).1⟩

end ClassFile

end Classpath
