import Classpath.Proofs.ClassFile.Carving

/-!
How far the instructions of a method reach. Main statement: the length that a method records is
taken from its code attribute as it stands there. Where the attribute holds as many bytes, they are
the method's instructions; where it does not, carving runs on into what is behind it.
-/

set_option autoImplicit false

namespace Classpath

namespace RawAttribute

/-- The bytes of a code attribute behind the length of the code. -/
def instructions (code : RawAttribute) : Bytes := code.payload.drop 8

theorem length_instructions (code : RawAttribute) :
    code.instructions.length = code.payload.length - 8 := by
  simp [instructions]

/-- The instructions are behind fourteen bytes of their attribute. -/
theorem drop_encode_append (code : RawAttribute) (room : 8 ≤ code.payload.length)
    (before after : Bytes) :
    (before ++ (code.encode ++ after)).drop (before.length + 14) =
      code.instructions ++ after := by
  have eight : (code.payload.take 8).length = 8 := List.length_take_of_le room
  have opening : (before ++ (bigEndianBytes 2 code.name.toNat ++
      (bigEndianBytes 4 code.payload.length ++ code.payload.take 8))).length =
        before.length + 14 := by
    simp only [List.length_append, length_bigEndianBytes, eight]
  have cut : before ++ (code.encode ++ after) =
      (before ++ (bigEndianBytes 2 code.name.toNat ++
        (bigEndianBytes 4 code.payload.length ++ code.payload.take 8))) ++
          (code.instructions ++ after) := by
    simp only [encode, instructions, List.append_assoc]
    rw [← List.append_assoc (code.payload.take 8), List.take_append_drop]
  rw [cut, ← opening, List.drop_left]

end RawAttribute

namespace ClassFile

theorem carvedAt_encode (code : RawAttribute) (room : 8 ≤ code.payload.length)
    (before after : Bytes) (length : Nat) :
    carvedAt (before ++ (code.encode ++ after)) length (some (before.length + 14)) =
      if length ≤ (code.instructions ++ after).length then
        .ok (some ((code.instructions ++ after).take length))
      else .error (.ofCause (.bytesTruncated length (code.instructions ++ after).length)) := by
  have dropped := code.drop_encode_append room before after
  have left : (before ++ (code.encode ++ after)).length - (before.length + 14) =
      (code.instructions ++ after).length := by
    rw [← List.length_drop, dropped]
  have inside : before.length + 14 ≤ (before ++ (code.encode ++ after)).length := by
    simp only [List.length_append, RawAttribute.encode, length_bigEndianBytes]
    omega
  have enough : before.length + 14 + length ≤ (before ++ (code.encode ++ after)).length ↔
      length ≤ (code.instructions ++ after).length := by
    omega
  rw [carvedAt, dropped, left]
  simp only [enough]

/-- What is carved is inside the attribute when that has as many bytes, and else all of them and
what is missing from behind it. -/
theorem take_instructions (code : RawAttribute) (after : Bytes) (length : Nat) :
    (code.instructions ++ after).take length =
      if length ≤ code.payload.length - 8 then code.instructions.take length
      else code.instructions ++ after.take (length - (code.payload.length - 8)) := by
  have sized := code.length_instructions
  split
  · rename_i inside
    exact List.take_append_of_le_length (by omega)
  · rename_i outside
    rw [List.take_append, List.take_of_length_le (by omega), sized]

/-- What a method records of its code is in the row at its place in the table. -/
theorem row_of_recorded_length {raw : RawClass} {cls : ClassFile} (resolves : raw.Resolvable)
    (describes : raw.Describes cls) {index : Nat} {method : Method} {length : UInt32}
    (placed : cls.methods[index]? = some method) (recorded : method.codeLength = some length) :
    ∃ row code, raw.methods.rows[index]? = some row ∧
      raw.pool.codeAttribute? row.attributes.rows = some code ∧ 8 ≤ code.payload.length ∧
      length = Attribute.codeLengthIn code.payload := by
  obtain ⟨within, rfl⟩ := List.getElem?_eq_some_iff.mp placed
  obtain ⟨sameLength, described⟩ := List.forall₂_iff_get.mp describes.methods
  have inRows : index < raw.methods.rows.length := by omega
  have row := described index inRows within
  have measured := row.codeLength
  simp only [List.get_eq_getElem] at measured
  rw [recorded] at measured
  obtain ⟨code, found, said⟩ := Option.map_eq_some_iff.mp measured.symm
  have member : raw.methods.rows[index] ∈ raw.methods.rows := List.getElem_mem inRows
  exact ⟨raw.methods.rows[index], code, List.getElem?_eq_getElem inRows, found,
    (resolves.methods _ member).code code found, said.symm⟩

end ClassFile

namespace ClassObject

/-- What the code of the first method of a name and descriptor comes to, by the instructions of its
attribute and what is behind them. -/
theorem methodCode_eq_take (raw : RawClass) (resolves : raw.Resolvable) (tail : Bytes)
    {cls : ClassFile} (describes : raw.Describes cls) {name descriptor : String}
    {method : Method} {length : UInt32} (first : cls.method? name descriptor = some method)
    (recorded : method.codeLength = some length) :
    ∃ (code : RawAttribute) (before after : Bytes),
      raw.pool.codeOf? name descriptor raw.methods.rows = some code ∧
      8 ≤ code.payload.length ∧ length = Attribute.codeLengthIn code.payload ∧
      raw.encode ++ tail = before ++ (code.encode ++ after) ∧
      raw.codeStart? name descriptor = some (before.length + 14) ∧
      ∀ (registry : Registry) (files : FileTree) (kept : Option Pool),
        registry.readClassOf files cls = .ok (some (raw.encode ++ tail)) →
        kept = some raw.pool.pool ∨ kept = none →
        (⟨cls, kept⟩ : ClassObject).methodCode registry files method =
          if length.toNat ≤ (code.instructions ++ after).length then
            .ok (some ((code.instructions ++ after).take length.toNat))
          else .error ⟨[.loadingBytecode cls.name name descriptor],
            .bytesTruncated length.toNat (code.instructions ++ after).length⟩ := by
  have goes := List.find?_some first
  simp only [decide_eq_true_eq] at goes
  have measured := RawClass.codeLength_eq_codeOf? raw.pool name descriptor raw.methods.rows
    cls.methods describes.methods
  have found : cls.methods.find? (fun method => method.name = name ∧
      method.descriptor = descriptor) = some method := first
  rw [found, Option.bind_some, recorded] at measured
  obtain ⟨code, located, said⟩ := Option.map_eq_some_iff.mp measured.symm
  have room := RawClass.room_of_codeOf? raw.pool name descriptor raw.methods.rows
    resolves.methods code located
  have placed := raw.codeStart?_instructionsOf tail name descriptor
  rw [located] at placed
  generalize begins : raw.codeStart? name descriptor = start? at placed
  cases placed with
  | @some start _ placed =>
      obtain ⟨before, after, spelled, rfl⟩ := placed
      refine ⟨code, before, after, located, room, said.symm, spelled, rfl, ?_⟩
      intro registry files kept read resident
      have loaded := loadCode_eq_carvedAt raw resolves tail read resident name descriptor
        length.toNat
      rw [begins, spelled, ClassFile.carvedAt_encode code room] at loaded
      rw [methodCode, recorded, goes.1, goes.2]
      dsimp only
      rw [loaded]
      split
      · rfl
      · rfl

/-- Of a class that was parsed, each length that a method records is that in its first code
attribute, and is not measured by the attribute. Where it is not too long for the attribute, the
code of the first method of a name and descriptor is as many bytes, all from there; where it is too
long, the code runs on behind the attribute, as far as there are bytes. -/
theorem methodCode_of_recorded_length (bytes : Bytes) (own : Bool) (source : String)
    (cls : ClassFile) (pool : Pool) (parsed : ClassFile.parse bytes own source = .ok (cls, pool)) :
    ∃ (raw : RawClass) (tail : Bytes),
      raw.Resolvable ∧ bytes = raw.encode ++ tail ∧ raw.Describes cls ∧
      (∀ (index : Nat) (method : Method) (length : UInt32),
        cls.methods[index]? = some method → method.codeLength = some length →
        ∃ row code, raw.methods.rows[index]? = some row ∧
          raw.pool.codeAttribute? row.attributes.rows = some code ∧ 8 ≤ code.payload.length ∧
          length = Attribute.codeLengthIn code.payload) ∧
      ∀ (name descriptor : String) (method : Method) (length : UInt32),
        cls.method? name descriptor = some method → method.codeLength = some length →
        ∃ (code : RawAttribute) (before after : Bytes),
          raw.pool.codeOf? name descriptor raw.methods.rows = some code ∧
          8 ≤ code.payload.length ∧ length = Attribute.codeLengthIn code.payload ∧
          bytes = before ++ (code.encode ++ after) ∧
          raw.codeStart? name descriptor = some (before.length + 14) ∧
          ∀ (registry : Registry) (files : FileTree) (kept : Option Pool),
            registry.readClassOf files cls = .ok (some bytes) →
            kept = some pool ∨ kept = none →
            let outcome := (⟨cls, kept⟩ : ClassObject).methodCode registry files method
            (length.toNat ≤ code.payload.length - 8 →
              outcome = .ok (some (code.instructions.take length.toNat)) ∧
                (code.instructions.take length.toNat).length = length.toNat) ∧
            (code.payload.length - 8 < length.toNat →
              outcome =
                if length.toNat ≤ (code.instructions ++ after).length then
                  .ok (some (code.instructions ++
                    after.take (length.toNat - (code.payload.length - 8))))
                else .error ⟨[.loadingBytecode cls.name name descriptor],
                  .bytesTruncated length.toNat (code.instructions ++ after).length⟩) := by
  obtain ⟨raw, tail, resolves, describes, _, _, _, rfl, rfl⟩ :=
    (ClassFile.parse_eq_ok_iff _ _ _ _ _).mp parsed
  refine ⟨raw, tail, resolves, rfl, describes, ?_, ?_⟩
  · intro index method length placed recorded
    exact ClassFile.row_of_recorded_length resolves describes placed recorded
  · intro name descriptor method length first recorded
    obtain ⟨code, before, after, located, room, said, spelled, begins, carved⟩ :=
      methodCode_eq_take raw resolves tail describes first recorded
    refine ⟨code, before, after, located, room, said, spelled, begins, ?_⟩
    intro registry files kept found resident outcome
    have carvedHere := carved registry files kept found resident
    have sized := code.length_instructions
    constructor
    · intro inside
      have enough : length.toNat ≤ (code.instructions ++ after).length := by
        rw [List.length_append]
        omega
      rw [if_pos enough, ClassFile.take_instructions, if_pos inside] at carvedHere
      exact ⟨carvedHere, List.length_take_of_le (by omega)⟩
    · intro outside
      rw [ClassFile.take_instructions, if_neg (Nat.not_le_of_lt outside)] at carvedHere
      exact carvedHere

/-- The method of a class that has one method only. -/
theorem exists_onlyMethod {raw : RawClass} {cls : ClassFile} (describes : raw.Describes cls)
    {row : RawMember} {name descriptor : String} (only : raw.methods.rows = [row])
    (named : raw.pool.text? row.name = some name)
    (shaped : raw.pool.text? row.descriptor = some descriptor) :
    ∃ method, cls.method? name descriptor = some method ∧
      method.codeLength = (raw.pool.codeAttribute? row.attributes.rows).map fun code =>
        Attribute.codeLengthIn code.payload := by
  have described := describes.methods
  rw [only] at described
  cases methods : cls.methods with
  | nil =>
      rw [methods] at described
      cases described
  | cons method rest =>
      rw [methods] at described
      obtain ⟨row, nothing⟩ := List.forall₂_cons.mp described
      have sameName : method.name = name := Option.some.inj (row.name.symm.trans named)
      have sameShape : method.descriptor = descriptor :=
        Option.some.inj (row.descriptor.symm.trans shaped)
      have first : cls.method? name descriptor = some method := by
        simp [ClassFile.method?, methods, sameName, sameShape]
      exact ⟨method, first, row.codeLength⟩

/-- The specimen's method records one byte, and has one. -/
theorem methodCode_of_recorded_length_specimen : ∃ cls pool method,
    ClassFile.parse RawClass.specimen.encode true "A.class" = .ok (cls, pool) ∧
      specimenRegistry.readClassOf (RawClass.filesWith RawClass.specimen.encode) cls =
        .ok (some RawClass.specimen.encode) ∧
      cls.method? "m" "()V" = some method ∧ method.codeLength = some 1 ∧
      (⟨cls, none⟩ : ClassObject).methodCode specimenRegistry
        (RawClass.filesWith RawClass.specimen.encode) method = .ok (some [0xB1]) := by
  obtain ⟨cls, parsed, describes, _, sourced⟩ := ClassFile.exists_parse_specimen
  obtain ⟨-, named, shaped⟩ := RawClass.specimen_called
  obtain ⟨method, first, recorded⟩ := exists_onlyMethod describes rfl named shaped
  have one : method.codeLength = some 1 := by
    rw [recorded]
    decide +kernel
  have found := specimenRegistry_readClassOf RawClass.specimen.encode sourced
  obtain ⟨raw, tail, _, spelled, _, _, reaches⟩ := methodCode_of_recorded_length _ _ _ _ _ parsed
  obtain ⟨same, _⟩ := PrefixFree.rawClass RawClass.specimen raw [] tail
    (by rw [List.append_nil, spelled])
  subst same
  obtain ⟨code, _, _, located, _, _, _, _, carved⟩ := reaches "m" "()V" method 1 first one
  have payload : (RawClass.specimen.pool.codeOf? "m" "()V" RawClass.specimen.methods.rows).map
      RawAttribute.payload = some [0, 2, 0, 1, 0, 0, 0, 1, 0xB1, 0, 0, 0, 0] := by
    decide +kernel
  rw [located, Option.map_some, Option.some.injEq] at payload
  have inside : (1 : UInt32).toNat ≤ code.payload.length - 8 := by
    rw [payload]
    decide
  obtain ⟨loaded, _⟩ := (carved _ _ none found (Or.inr rfl)).1 inside
  rw [RawAttribute.instructions, payload] at loaded
  exact ⟨cls, _, method, parsed, found, first, one, loaded⟩

end ClassObject

namespace RawClass

/-- The specimen with a method that records six bytes of code, of which its attribute has five. -/
def overlong : RawClass :=
  { specimen with
    methods := ⟨[⟨1, 6, 7, ⟨[⟨3, [0, 2, 0, 1, 0, 0, 0, 6, 0xB1, 0, 0, 0, 0], by decide⟩],
      by decide⟩⟩], by decide⟩ }

theorem overlong_resolvable : overlong.Resolvable where
  thisClass := specimen_resolvable.thisClass
  superClass := specimen_resolvable.superClass
  interfaces := specimen_resolvable.interfaces
  fields := specimen_resolvable.fields
  methods := by
    intro row member
    cases List.mem_singleton.mp member
    refine ⟨rfl, rfl, ?_, ?_⟩
    · decide +kernel
    · decide +kernel

end RawClass

namespace ClassObject

/-- Whatever is behind the class with the overlong code, its method records six bytes, and they are
carved from where the code begins. -/
theorem methodCode_overlong (tail : Bytes) : ∃ cls method,
    ClassFile.parse (RawClass.overlong.encode ++ tail) true "A.class" =
      .ok (cls, RawClass.overlong.pool.pool) ∧
    specimenRegistry.readClassOf (RawClass.filesWith (RawClass.overlong.encode ++ tail)) cls =
      .ok (some (RawClass.overlong.encode ++ tail)) ∧
    cls.method? "m" "()V" = some method ∧ method.codeLength = some 6 ∧
    (⟨cls, some RawClass.overlong.pool.pool⟩ : ClassObject).methodCode specimenRegistry
      (RawClass.filesWith (RawClass.overlong.encode ++ tail)) method =
        (ClassFile.carvedAt (RawClass.overlong.encode ++ tail) 6
          (RawClass.overlong.codeStart? "m" "()V")).mapError
            (·.within (.loadingBytecode cls.name "m" "()V")) := by
  obtain ⟨cls, parsed, describes, sourced⟩ :=
    ClassFile.exists_parse RawClass.overlong_resolvable tail true "A.class"
  have named : RawClass.overlong.pool.text? 6 = some "m" := RawClass.specimen_called.2.1
  have shaped : RawClass.overlong.pool.text? 7 = some "()V" := RawClass.specimen_called.2.2
  obtain ⟨method, first, recorded⟩ := exists_onlyMethod describes rfl named shaped
  have six : method.codeLength = some 6 := by
    rw [recorded]
    decide +kernel
  have found := specimenRegistry_readClassOf (RawClass.overlong.encode ++ tail) sourced
  have goes := List.find?_some first
  simp only [decide_eq_true_eq] at goes
  refine ⟨cls, method, parsed, found, first, six, ?_⟩
  rw [methodCode, six, goes.1, goes.2]
  exact loadCode_eq_carvedAt RawClass.overlong RawClass.overlong_resolvable tail found
    (Or.inl rfl) "m" "()V" 6

/-- A method may record more code than its attribute has: of a class that ends there the code then
cannot be loaded, and of one that does not end there the code ends in a byte that is not its own. -/
theorem recorded_length_beyond_attribute :
    (RawClass.overlong.pool.codeOf? "m" "()V" RawClass.overlong.methods.rows).map
      RawAttribute.payload = some ([0, 2, 0, 1, 0, 0, 0, 6] ++ [0xB1, 0, 0, 0, 0]) ∧
    (∃ cls pool method,
      ClassFile.parse RawClass.overlong.encode true "A.class" = .ok (cls, pool) ∧
      cls.method? "m" "()V" = some method ∧ method.codeLength = some 6 ∧
      specimenRegistry.readClassOf (RawClass.filesWith RawClass.overlong.encode) cls =
        .ok (some RawClass.overlong.encode) ∧
      (⟨cls, some pool⟩ : ClassObject).methodCode specimenRegistry
        (RawClass.filesWith RawClass.overlong.encode) method =
          .error ⟨[.loadingBytecode cls.name "m" "()V"], .bytesTruncated 6 5⟩) ∧
    ∃ cls pool method,
      ClassFile.parse (RawClass.overlong.encode ++ [7]) true "A.class" = .ok (cls, pool) ∧
      cls.method? "m" "()V" = some method ∧ method.codeLength = some 6 ∧
      specimenRegistry.readClassOf (RawClass.filesWith (RawClass.overlong.encode ++ [7])) cls =
        .ok (some (RawClass.overlong.encode ++ [7])) ∧
      (⟨cls, some pool⟩ : ClassObject).methodCode specimenRegistry
        (RawClass.filesWith (RawClass.overlong.encode ++ [7])) method =
          .ok (some ([0xB1, 0, 0, 0, 0] ++ [7])) := by
  have payload : (RawClass.overlong.pool.codeOf? "m" "()V" RawClass.overlong.methods.rows).map
      RawAttribute.payload = some ([0, 2, 0, 1, 0, 0, 0, 6] ++ [0xB1, 0, 0, 0, 0]) := by
    decide +kernel
  have short : ClassFile.carvedAt (RawClass.overlong.encode ++ []) 6
      (RawClass.overlong.codeStart? "m" "()V") = .error (.ofCause (.bytesTruncated 6 5)) := by
    decide +kernel
  have beyond : ClassFile.carvedAt (RawClass.overlong.encode ++ [7]) 6
      (RawClass.overlong.codeStart? "m" "()V") = .ok (some [0xB1, 0, 0, 0, 0, 7]) := by
    decide +kernel
  refine ⟨payload, ?_, ?_⟩
  · obtain ⟨cls, method, parsed, found, first, recorded, loaded⟩ := methodCode_overlong []
    rw [short] at loaded
    rw [List.append_nil] at parsed found loaded
    exact ⟨cls, _, method, parsed, first, recorded, found, loaded⟩
  · obtain ⟨cls, method, parsed, found, first, recorded, loaded⟩ := methodCode_overlong [7]
    rw [beyond] at loaded
    exact ⟨cls, _, method, parsed, first, recorded, found, loaded⟩

end ClassObject

end Classpath
