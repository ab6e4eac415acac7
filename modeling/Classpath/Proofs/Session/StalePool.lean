import Classpath.Proofs.ClassFile.CodePlace
import Classpath.Proofs.Session.Reachable

/-!
Pools that are kept while the files change. Main statement: what is loaded as the code of a method
is that, as the pool in the bytes tells it, unless the kept pool is another one; then it may be the
code of another method.
-/

set_option autoImplicit false

namespace Classpath

namespace ClassObject

/-- Whatever bytes now stand behind a class: if its pool is released, or is the one that is in those
bytes, then the code that is loaded for a method stands behind the length of the code in a code
attribute of a method of the name and descriptor, as the pool in the bytes tells them. -/
theorem loadCode_from_method (object : ClassObject) (registry : Registry) (files : FileTree)
    (name descriptor : String) (length : Nat) (code : Bytes)
    (current : ∀ bytes pool, registry.readClassOf files object.file = .ok (some bytes) →
      object.pool = some pool → object.file.rereadPool bytes = .ok pool)
    (ran : object.loadCode registry files name descriptor length = .ok (some code)) :
    ∃ (bytes : Bytes) (place : CodePlace) (rest : Bytes),
      registry.readClassOf files object.file = .ok (some bytes) ∧
      bytes = place.encode ++ (code ++ rest) ∧ code.length = length ∧
      object.file.rereadPool bytes = .ok place.pool.pool ∧
      place.ToldBy place.pool.pool name descriptor := by
  obtain ⟨bytes, place, rest, found, spelled, measured, told⟩ := codePlace_of_loadCode ran
  have stored : object.file.rereadPool bytes = .ok place.pool.pool := by
    rw [spelled, CodePlace.encode, List.append_assoc, List.append_assoc]
    exact ClassFile.rereadPool_eq_ok object.file place.head place.pool _ place.headed
  refine ⟨bytes, place, rest, found, spelled, measured, stored, ?_⟩
  cases kept : object.pool with
  | none =>
      rw [kept] at told
      exact told
  | some pool =>
      have same := current bytes pool found kept
      rw [stored] at same
      cases same
      rw [kept] at told
      exact told

/-- The class of the specimen, with the pool kept that it was parsed with, over one file that holds
a class of the same methods. -/
theorem loadCode_kept_specimen {cls : ClassFile} {registry : Registry} (raw : RawClass)
    (sourced : cls.source = "A.class")
    (entered : registry.entries["A.class"]? = some (.file "A.class"))
    (same : raw.methods = RawClass.specimen.methods) (name descriptor : String) (length : Nat) :
    registry.readClassOf (RawClass.filesWith raw.encode) cls = .ok (some raw.encode) ∧
      (⟨cls, some RawClass.specimen.pool.pool⟩ : ClassObject).loadCode registry
        (RawClass.filesWith raw.encode) name descriptor length =
        (ClassFile.carvedAt raw.encode length (RawClass.codeStartOf? RawClass.specimen.pool name
          descriptor raw.encodeFront.length raw.methods.rows)).mapError
            (·.within (.loadingBytecode cls.name name descriptor)) := by
  have found := readClassOf_filesWith raw.encode sourced entered
  have resolves : ∀ row ∈ raw.methods.rows, row.ResolvesAsMethod RawClass.specimen.pool := by
    rw [same]
    exact RawClass.specimen_resolvable.methods
  have walked := ClassFile.run_readCode_kept raw RawClass.specimen.pool resolves [] cls.name name
    descriptor length
  rw [List.append_nil] at walked
  refine ⟨found, ?_⟩
  rw [loadCode, found]
  change ClassFile.carve cls (some RawClass.specimen.pool.pool) raw.encode name descriptor length =
    _
  rw [ClassFile.carve, walked]

/-- The specimen's code is loaded from its own method. -/
theorem loadCode_from_method_specimen : ∃ (cls : ClassFile) (place : CodePlace) (rest : Bytes),
    (⟨cls, some RawClass.specimen.pool.pool⟩ : ClassObject).loadCode specimenRegistry
      (RawClass.filesWith RawClass.specimen.encode) "m" "()V" 1 = .ok (some [0xB1]) ∧
    RawClass.specimen.encode = place.encode ++ ([0xB1] ++ rest) ∧
    place.ToldBy place.pool.pool "m" "()V" := by
  obtain ⟨cls, parsed, _, _, sourced⟩ := ClassFile.exists_parse_specimen
  have entered : specimenRegistry.entries["A.class"]? = some (.file "A.class") :=
    Std.ExtTreeMap.getElem?_insert_self
  obtain ⟨found, loaded⟩ := loadCode_kept_specimen RawClass.specimen sourced entered rfl "m" "()V" 1
  have carved : ClassFile.carvedAt RawClass.specimen.encode 1 (RawClass.codeStartOf?
      RawClass.specimen.pool "m" "()V" RawClass.specimen.encodeFront.length
      RawClass.specimen.methods.rows) = .ok (some [0xB1]) := by
    decide +kernel
  rw [carved] at loaded
  have stored : cls.rereadPool RawClass.specimen.encode = .ok RawClass.specimen.pool.pool :=
    ClassFile.rereadPool_eq_ok cls RawClass.specimen.encodeHead RawClass.specimen.pool _
      RawClass.specimen.length_encodeHead
  obtain ⟨bytes, place, rest, same, spelled, _, _, told⟩ := loadCode_from_method _ _ _ _ _ _ _
    (fun bytes pool read kept => by
      rw [found] at read
      cases read
      cases kept
      exact stored) loaded
  rw [found] at same
  cases same
  exact ⟨cls, place, rest, loaded, spelled, told⟩

end ClassObject

namespace RawPool

/-- What starts at some place is one of the constants. -/
theorem mem_of_startingAt? (wanted index : Nat) (constants : List RawConstant) (raw : RawConstant)
    (found : startingAt? wanted index constants = some raw) : raw ∈ constants := by
  induction constants generalizing index with
  | nil => cases found
  | cons first rest ih =>
      rw [startingAt?] at found
      by_cases here : index = wanted
      · rw [if_pos here] at found
        cases found
        exact List.mem_cons_self
      · rw [if_neg here] at found
        exact List.mem_cons_of_mem first (ih _ found)

end RawPool

namespace RawClass

/-- The specimen with its method turned into an overload, of the descriptor "()I". -/
def overloaded : RawClass :=
  { specimen with
    pool := {
      count := 10
      constants := specimen.pool.constants.set 5 (.text [0x28, 0x29, 0x49] (by decide))
      filled := by decide } }

/-- No constant of the overload is the text of the old descriptor. -/
theorem overloaded_lacks (index : UInt16) : overloaded.pool.pool.utf8 index ≠ .ok "()V" := by
  intro found
  have named := (overloaded.pool.utf8_pool index "()V").mp found
  have absent : ∀ raw ∈ overloaded.pool.constants, raw.decoded ≠ .utf8 "()V" := by
    decide +kernel
  unfold RawPool.text? RawPool.constant? at named
  split at named
  · rename_i payload fits started
    have member := RawPool.mem_of_startingAt? _ _ _ _ started
    have decoded := Option.some.inj named
    exact absent _ member (congrArg Constant.utf8 decoded)
  · cases named

end RawClass

namespace Session

/-- The session that has scanned the specimen, with the file rewritten since. -/
def rewritten : Session :=
  { specimen with files := RawClass.filesWith RawClass.overloaded.encode }

/-- The pool that is kept from before the file was rewritten leads to the code of the overload,
though no method in the file has the descriptor that is asked for. -/
theorem stale_pool_loads_overload : rewritten.Reachable ∧ ∃ object,
    rewritten.object? (.named "A") = some object ∧
    rewritten.registry.readClassOf rewritten.files object.file =
      .ok (some RawClass.overloaded.encode) ∧
    object.loadCode rewritten.registry rewritten.files "m" "()V" 1 = .ok (some [0xB1]) ∧
    ¬ ∃ (place : CodePlace) (rest : Bytes),
      RawClass.overloaded.encode = place.encode ++ ([0xB1] ++ rest) ∧
        place.ToldBy place.pool.pool "m" "()V" := by
  obtain ⟨cls, _, _, sourced, scanned⟩ := exists_specimen
  have located : rewritten.registry.classes["A"]? = some 0 := specimen_classes
  have held : rewritten.objects[0]? = some ⟨cls, some RawClass.specimen.pool.pool⟩ := by
    rw [rewritten, scanned]
    rfl
  have entered : rewritten.registry.entries["A.class"]? = some (.file "A.class") :=
    specimen_entries
  have carved : ClassFile.carvedAt RawClass.overloaded.encode 1 (RawClass.codeStartOf?
      RawClass.specimen.pool "m" "()V" RawClass.overloaded.encodeFront.length
      RawClass.overloaded.methods.rows) = .ok (some [0xB1]) := by
    decide +kernel
  obtain ⟨found, loaded⟩ := ClassObject.loadCode_kept_specimen RawClass.overloaded sourced entered
    rfl "m" "()V" 1
  rw [carved] at loaded
  refine ⟨.refile _ specimen_reachable, ⟨cls, some RawClass.specimen.pool.pool⟩, ?_, found, loaded,
    ?_⟩
  · change (rewritten.registry.classes["A"]?).bind _ = _
    rw [located]
    exact held
  · rintro ⟨place, rest, spelled, told⟩
    have stored : cls.rereadPool RawClass.overloaded.encode = .ok RawClass.overloaded.pool.pool :=
      ClassFile.rereadPool_eq_ok cls RawClass.overloaded.encodeHead RawClass.overloaded.pool _
        RawClass.overloaded.length_encodeHead
    rw [spelled, CodePlace.encode, List.append_assoc, List.append_assoc,
      ClassFile.rereadPool_eq_ok cls place.head place.pool _ place.headed] at stored
    have same := Except.ok.inj stored
    have descriptor := told.descriptor
    rw [same] at descriptor
    exact RawClass.overloaded_lacks _ descriptor

end Session

end Classpath
