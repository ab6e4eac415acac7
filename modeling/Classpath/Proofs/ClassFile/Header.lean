import Classpath.Proofs.ClassFile.Pool

/-!
Class headers against their layout: exactly the layouts whose indices lead where they should are
read, and each is read for what it describes.
-/

set_option autoImplicit false

namespace Classpath

/-- A count in front of a body that reads as many rows. -/
theorem Reads.counted {α ρ : Type} {encode : ρ → Bytes} {means : List ρ → α → Prop}
    {body : Nat → Read α}
    (reads : ∀ count, Reads (body count) (fun value taken => ∃ rows, rows.length = count ∧
      means rows value ∧ taken = rows.flatMap encode)) :
    Reads (do body (← Read.u16).toNat) (fun value taken => ∃ table : Table ρ,
      means table.rows value ∧ taken = table.encode encode) := by
  refine (Reads.u16.bind fun count => reads count.toNat).congr fun value taken => ?_
  constructor
  · rintro ⟨count, _, _, rfl, ⟨rows, counted, meant, rfl⟩, rfl⟩
    refine ⟨⟨rows, counted ▸ count.toNat_lt⟩, meant, ?_⟩
    simp only [Table.encode, counted]
  · intro laid
    obtain ⟨table, meant, spelled⟩ := laid
    have counted := table.toNat_length
    refine ⟨UInt16.ofNat table.rows.length, _, _, rfl, ⟨table.rows, counted.symm, meant, rfl⟩, ?_⟩
    rw [spelled, Table.encode, counted]

theorem Read.u16_length {ρ : Type} (table : Table ρ) (position : Nat) (rest : Bytes) :
    u16 ⟨position, bigEndianBytes 2 table.rows.length ++ rest⟩ =
      .ok (UInt16.ofNat table.rows.length) ⟨position + 2, rest⟩ :=
  Reads.u16.eval (by rw [table.toNat_length]) position rest

theorem ClassFile.reads_table {α ρ : Type} {item : Read α} {encode : ρ → Bytes}
    {means : ρ → α → Prop}
    (reads : Reads item (fun value taken => ∃ row, means row value ∧ taken = encode row)) :
    Reads (readTable item) (fun values taken => ∃ table : Table ρ,
      List.Forall₂ means table.rows values ∧ taken = table.encode encode) :=
  Reads.counted (Reads.times reads)

namespace Attribute

/-- A length, and as many bytes behind it. -/
theorem exists_payload (length : UInt32) (payload : Bytes) (sized : payload.length = length.toNat) :
    ∃ fits : payload.length < 4294967296, ∀ name,
      (⟨name, payload, fits⟩ : RawAttribute).encode =
        bigEndianBytes 2 name.toNat ++ (bigEndianBytes 4 length.toNat ++ payload) := by
  refine ⟨sized ▸ length.toNat_lt, fun name => ?_⟩
  simp only [RawAttribute.encode, sized, List.append_assoc]

theorem toNat_length (raw : RawAttribute) :
    (UInt32.ofNat raw.payload.length).toNat = raw.payload.length :=
  UInt32.toNat_ofNat_of_lt' raw.fits

theorem reads_skipMany (count : Nat) : Reads (skipMany count) (fun _ taken =>
    ∃ rows : List RawAttribute, rows.length = count ∧ True ∧
      taken = rows.flatMap RawAttribute.encode) := by
  induction count with
  | zero =>
      refine (Reads.pure ()).congr fun _ taken => ?_
      constructor
      · rintro ⟨_, rfl⟩
        exact ⟨[], rfl, trivial, rfl⟩
      · rintro ⟨rows, none, _, rfl⟩
        rw [List.eq_nil_of_length_eq_zero none]
        exact ⟨rfl, rfl⟩
  | succ count ih =>
      refine ((Reads.discard 2).bind fun _ => Reads.u32.bind fun length =>
        (Reads.discard length.toNat).bind fun _ => ih).congr fun _ taken => ?_
      constructor
      · rintro ⟨_, nameBytes, _, nameSized, ⟨length, _, _, rfl, ⟨_, payload, _, sized,
          ⟨rows, counted, _, rfl⟩, rfl⟩, rfl⟩, rfl⟩
        obtain ⟨name, rfl⟩ := exists_word_of_length_two nameBytes nameSized
        obtain ⟨fits, encoded⟩ := exists_payload length payload sized
        refine ⟨⟨name, payload, fits⟩ :: rows, congrArg (· + 1) counted, trivial, ?_⟩
        rw [List.flatMap_cons, encoded, List.append_assoc, List.append_assoc]
      · rintro ⟨rows, counted, _, rfl⟩
        cases rows with
        | nil => cases counted
        | cons raw rows =>
            refine ⟨(), _, _, length_bigEndianBytes 2 raw.name.toNat, ⟨_, _, _, rfl,
              ⟨(), raw.payload, _, (toNat_length raw).symm, ⟨rows, Nat.succ.inj counted, trivial,
                rfl⟩, rfl⟩, rfl⟩, ?_⟩
            rw [List.flatMap_cons, RawAttribute.encode, toNat_length, List.append_assoc,
              List.append_assoc]

/-- Whatever they are named by, attributes are stepped over by their lengths. -/
theorem reads_skipTable : Reads skipTable (fun _ taken => ∃ table : Table RawAttribute,
    True ∧ taken = table.encode RawAttribute.encode) :=
  Reads.counted reads_skipMany

theorem skipTable_encode (table : Table RawAttribute) (position : Nat) (rest : Bytes) :
    skipTable ⟨position, table.encode RawAttribute.encode ++ rest⟩ =
      .ok () ⟨position + (table.encode RawAttribute.encode).length, rest⟩ :=
  reads_skipTable.eval ⟨table, trivial, rfl⟩ position rest

/-- What measuring the code among attributes answers, where one in front of them was `found` to be
of some length, or none was. -/
structure Measures (pool : RawPool) (found : Option UInt32) (rows : List RawAttribute)
    (answer : Option UInt32) : Prop where
  named : ∀ raw ∈ rows, (pool.text? raw.name).isSome
  fits : found = none → ∀ raw, pool.codeAttribute? rows = some raw → 8 ≤ raw.payload.length
  answer : answer =
    found.or ((pool.codeAttribute? rows).map fun raw => codeLengthIn raw.payload)

theorem measures_nil (pool : RawPool) (found answer : Option UInt32) :
    Measures pool found [] answer ↔ answer = found := by
  constructor
  · intro measured
    simpa only [RawPool.codeAttribute?, List.find?_nil, Option.map_none, Option.or_none]
      using measured.answer
  · intro same
    rw [same]
    constructor
    · intro raw among
      cases among
    · intro _ raw first
      cases first
    · simp only [RawPool.codeAttribute?, List.find?_nil, Option.map_none, Option.or_none]

/-- The first code attribute decides the answer. -/
theorem measures_cons_code {pool : RawPool} {raw : RawAttribute} (rows : List RawAttribute)
    (answer : Option UInt32) (named : pool.text? raw.name = some codeName) :
    Measures pool none (raw :: rows) answer ↔
      8 ≤ raw.payload.length ∧ Measures pool (some (codeLengthIn raw.payload)) rows answer := by
  have first : pool.codeAttribute? (raw :: rows) = some raw := by
    rw [pool.codeAttribute?_cons, if_pos named]
  constructor
  · intro measured
    have namedRest := (List.forall_mem_cons.mp measured.named).2
    have room := measured.fits rfl raw first
    have answered := measured.answer
    rw [first] at answered
    exact ⟨room, namedRest, nofun, answered⟩
  · intro decided
    obtain ⟨room, measured⟩ := decided
    refine ⟨?_, ?_, ?_⟩
    · exact List.forall_mem_cons.mpr ⟨Option.isSome_of_eq_some named, measured.named⟩
    · intro _ found same
      rw [first] at same
      exact Option.some.inj same ▸ room
    · rw [first]
      exact measured.answer

/-- Other attributes and later ones decide nothing. -/
theorem measures_cons_other {pool : RawPool} {found : Option UInt32} {raw : RawAttribute}
    {text : String} (rows : List RawAttribute) (answer : Option UInt32)
    (named : pool.text? raw.name = some text) (undecided : ¬ (found.isNone ∧ text = codeName)) :
    Measures pool found (raw :: rows) answer ↔ Measures pool found rows answer := by
  have skipped (unfound : found = none) :
      pool.codeAttribute? (raw :: rows) = pool.codeAttribute? rows := by
    have other : ¬ pool.text? raw.name = some codeName := by
      rw [named, Option.some.injEq]
      intro code
      exact undecided ⟨by rw [unfound]; rfl, code⟩
    rw [pool.codeAttribute?_cons, if_neg other]
  have sameAnswer : found.or ((pool.codeAttribute? (raw :: rows)).map
      fun raw => codeLengthIn raw.payload) =
        found.or ((pool.codeAttribute? rows).map fun raw => codeLengthIn raw.payload) := by
    cases found with
    | none => rw [skipped rfl]
    | some length => rfl
  constructor
  · intro measured
    have namedRest := (List.forall_mem_cons.mp measured.named).2
    refine ⟨namedRest, ?_, measured.answer.trans sameAnswer⟩
    intro unfound
    have fits := measured.fits unfound
    rw [skipped unfound] at fits
    exact fits
  · intro measured
    refine ⟨?_, ?_, measured.answer.trans sameAnswer.symm⟩
    · exact List.forall_mem_cons.mpr ⟨Option.isSome_of_eq_some named, measured.named⟩
    · intro unfound
      rw [skipped unfound]
      exact measured.fits unfound

/-- An attribute decides the answer if it is named as code is and none in front of it was. -/
theorem measures_cons (pool : RawPool) (found answer : Option UInt32) (raw : RawAttribute)
    (rows : List RawAttribute) :
    Measures pool found (raw :: rows) answer ↔ ∃ text, pool.text? raw.name = some text ∧
      if found.isNone ∧ text = codeName then
        8 ≤ raw.payload.length ∧ Measures pool (some (codeLengthIn raw.payload)) rows answer
      else Measures pool found rows answer := by
  have decided (text : String) (named : pool.text? raw.name = some text) :
      Measures pool found (raw :: rows) answer ↔
        if found.isNone ∧ text = codeName then
          8 ≤ raw.payload.length ∧ Measures pool (some (codeLengthIn raw.payload)) rows answer
        else Measures pool found rows answer := by
    by_cases decides : found.isNone ∧ text = codeName
    · have unfound : found = none := Option.isNone_iff_eq_none.mp decides.1
      rw [if_pos decides, unfound]
      exact measures_cons_code rows answer (named.trans (congrArg some decides.2))
    · rw [if_neg decides]
      exact measures_cons_other rows answer named decides
  constructor
  · intro measured
    obtain ⟨text, named⟩ := Option.isSome_iff_exists.mp (measured.named raw List.mem_cons_self)
    exact ⟨text, named, (decided text named).mp measured⟩
  · intro decided
    obtain ⟨text, named, rest⟩ := decided
    exact (decided text named).mpr rest

/-- The payload of a code attribute is taken in three steps, the second of which is the answer. -/
theorem reads_codePayload {α : Type} (length : UInt32) (room : ¬ length < 8)
    {next : UInt32 → Read α} {spells : UInt32 → α → Bytes → Prop}
    (reads : ∀ codeLength, Reads (next codeLength) (spells codeLength)) :
    Reads (do
      Read.discard 4
      let codeLength ← Read.u32
      Read.discard (length.toNat - 8)
      next codeLength) (fun answer taken => ∃ payload rest : Bytes,
        payload.length = length.toNat ∧ spells (codeLengthIn payload) answer rest ∧
          taken = payload ++ rest) := by
  have eight : 8 ≤ length.toNat := by
    have := UInt32.not_lt.mp room
    exact UInt32.le_iff_toNat_le.mp this
  refine ((Reads.discard 4).bind fun _ => Reads.u32.bind fun codeLength =>
    (Reads.discard (length.toNat - 8)).bind fun _ => reads codeLength).congr fun answer taken => ?_
  constructor
  · rintro ⟨_, front, _, frontSized, ⟨codeLength, _, _, rfl, ⟨_, back, rest, backSized, spelled,
      rfl⟩, rfl⟩, rfl⟩
    refine ⟨front ++ (bigEndianBytes 4 codeLength.toNat ++ back), rest, ?_, ?_, ?_⟩
    · rw [List.length_append, List.length_append, frontSized, backSized, length_bigEndianBytes]
      omega
    · rw [codeLengthIn, List.drop_left' frontSized,
        List.take_left' (length_bigEndianBytes 4 codeLength.toNat),
        bigEndian_bigEndianBytes 4 _ codeLength.toNat_lt, UInt32.ofNat_toNat]
      exact spelled
    · simp only [List.append_assoc]
  · intro spells
    obtain ⟨payload, rest, sized, spelled, whole⟩ := spells
    have cut := payload_eq payload (by omega)
    have front : (payload.take 4).length = 4 := List.length_take_of_le (by omega)
    have back : (payload.drop 8).length = length.toNat - 8 := by rw [List.length_drop, sized]
    refine ⟨(), payload.take 4, _, front, ⟨codeLengthIn payload, _, _, rfl,
      ⟨(), payload.drop 8, rest, back, spelled, rfl⟩, rfl⟩, ?_⟩
    rw [whole]
    nth_rewrite 1 [cut]
    simp only [List.append_assoc]

/-- The payload of an attribute is stepped over, or looked into if it may be the code. -/
theorem reads_payload {α : Type} (found : Option UInt32) (text : String) (length : UInt32)
    {next : Option UInt32 → Read α} {spells : Option UInt32 → α → Bytes → Prop}
    (reads : ∀ found, Reads (next found) (spells found)) :
    Reads (if found.isNone ∧ text = codeName then
        if length < 8 then do
          throw (.ofCause (.truncatedAttribute text length))
          Read.discard 4
          let codeLength ← Read.u32
          Read.discard (length.toNat - 8)
          next (some codeLength)
        else do
          Read.discard 4
          let codeLength ← Read.u32
          Read.discard (length.toNat - 8)
          next (some codeLength)
      else do
        Read.discard length.toNat
        next found) (fun answer taken => ∃ payload rest : Bytes, payload.length = length.toNat ∧
          taken = payload ++ rest ∧ if found.isNone ∧ text = codeName then
            8 ≤ payload.length ∧ spells (some (codeLengthIn payload)) answer rest
          else spells found answer rest) := by
  by_cases decides : found.isNone ∧ text = codeName
  · simp only [if_pos decides]
    by_cases short : length < 8
    · have small : length.toNat < 8 := UInt32.lt_iff_toNat_lt.mp short
      rw [if_pos short]
      refine (Reads.throw_bind _ _).congr fun answer taken => ?_
      constructor
      · intro impossible
        cases impossible
      · intro spells
        obtain ⟨payload, _, sized, _, room, _⟩ := spells
        omega
    · have eight : 8 ≤ length.toNat := UInt32.le_iff_toNat_le.mp (UInt32.not_lt.mp short)
      rw [if_neg short]
      refine (reads_codePayload length short fun codeLength =>
        reads (some codeLength)).congr fun answer taken => ?_
      constructor
      · intro spells
        obtain ⟨payload, rest, sized, spelled, whole⟩ := spells
        exact ⟨payload, rest, sized, whole, sized ▸ eight, spelled⟩
      · intro spells
        obtain ⟨payload, rest, sized, whole, _, spelled⟩ := spells
        exact ⟨payload, rest, sized, spelled, whole⟩
  · simp only [if_neg decides]
    refine ((Reads.discard length.toNat).bind fun _ => reads found).congr fun answer taken => ?_
    constructor
    · intro spells
      obtain ⟨_, payload, rest, sized, spelled, whole⟩ := spells
      exact ⟨payload, rest, sized, whole, spelled⟩
    · intro spells
      obtain ⟨payload, rest, sized, whole, spelled⟩ := spells
      exact ⟨(), payload, rest, sized, spelled, whole⟩

/-- Behind the name of an attribute come its length and its payload. -/
theorem reads_measured {α : Type} (found : Option UInt32) (text : String)
    {next : Option UInt32 → Read α} {spells : Option UInt32 → α → Bytes → Prop}
    (reads : ∀ found, Reads (next found) (spells found)) :
    Reads (do
      let length ← Read.u32
      if found.isNone ∧ text = codeName then
        if length < 8 then
          throw (.ofCause (.truncatedAttribute text length))
        Read.discard 4
        let codeLength ← Read.u32
        Read.discard (length.toNat - 8)
        next (some codeLength)
      else
        Read.discard length.toNat
        next found) (fun answer taken => ∃ (payload : Bytes) (rest : Bytes),
          payload.length < 4294967296 ∧
            taken = bigEndianBytes 4 payload.length ++ (payload ++ rest) ∧
            if found.isNone ∧ text = codeName then
              8 ≤ payload.length ∧ spells (some (codeLengthIn payload)) answer rest
            else spells found answer rest) := by
  refine (Reads.u32.bind fun length =>
    reads_payload found text length reads).congr fun answer taken => ?_
  constructor
  · rintro ⟨length, _, _, rfl, ⟨payload, rest, sized, rfl, spelled⟩, rfl⟩
    exact ⟨payload, rest, sized ▸ length.toNat_lt, by rw [sized], spelled⟩
  · rintro ⟨payload, rest, fits, rfl, spelled⟩
    have sized : (UInt32.ofNat payload.length).toNat = payload.length :=
      UInt32.toNat_ofNat_of_lt' fits
    exact ⟨UInt32.ofNat payload.length, _, _, rfl, ⟨payload, rest, sized.symm, rfl, spelled⟩,
      by rw [sized]⟩

/-- However an attribute decides the answer, it stands in front of the same rows. -/
theorem exists_rows_behind (pool : RawPool) (found answer : Option UInt32) (text : String)
    (payload rest : Bytes) (count : Nat) :
    (if found.isNone ∧ text = codeName then
      8 ≤ payload.length ∧ ∃ rows : List RawAttribute, rows.length = count ∧
        Measures pool (some (codeLengthIn payload)) rows answer ∧
          rest = rows.flatMap RawAttribute.encode
    else ∃ rows : List RawAttribute, rows.length = count ∧ Measures pool found rows answer ∧
      rest = rows.flatMap RawAttribute.encode) ↔
    ∃ rows : List RawAttribute, rows.length = count ∧
      (if found.isNone ∧ text = codeName then
        8 ≤ payload.length ∧ Measures pool (some (codeLengthIn payload)) rows answer
      else Measures pool found rows answer) ∧ rest = rows.flatMap RawAttribute.encode := by
  by_cases decides : found.isNone ∧ text = codeName
  · simp only [if_pos decides]
    constructor
    · intro behind
      obtain ⟨room, rows, counted, measured, spelled⟩ := behind
      exact ⟨rows, counted, ⟨room, measured⟩, spelled⟩
    · intro behind
      obtain ⟨rows, counted, ⟨room, measured⟩, spelled⟩ := behind
      exact ⟨room, rows, counted, measured, spelled⟩
  · simp only [if_neg decides]

theorem reads_codeLengthAmong (pool : RawPool) (count : Nat) (found : Option UInt32) :
    Reads (codeLengthAmong pool.pool count found) (fun answer taken => ∃ rows : List RawAttribute,
      rows.length = count ∧ Measures pool found rows answer ∧
        taken = rows.flatMap RawAttribute.encode) := by
  induction count generalizing found with
  | zero =>
      refine (Reads.pure found).congr fun answer taken => ?_
      constructor
      · rintro ⟨rfl, rfl⟩
        exact ⟨[], rfl, (measures_nil pool _ _).mpr rfl, rfl⟩
      · rintro ⟨rows, none, measured, rfl⟩
        rw [List.eq_nil_of_length_eq_zero none] at measured ⊢
        exact ⟨(measures_nil pool _ _).mp measured, rfl⟩
  | succ count ih =>
      refine (Reads.u16.bind fun index => (Reads.ofExcept (pool.pool.utf8 index)).bind fun text =>
        reads_measured found text ih).congr fun answer taken => ?_
      simp only [exists_rows_behind, pool.utf8_pool]
      constructor
      · rintro ⟨name, _, _, rfl, ⟨text, _, _, ⟨named, rfl⟩, ⟨payload, _, fits, rfl,
          ⟨rows, counted, measured, rfl⟩⟩, rfl⟩, rfl⟩
        have decided := (measures_cons pool found answer ⟨name, payload, fits⟩ rows).mpr
          ⟨text, named, measured⟩
        refine ⟨⟨name, payload, fits⟩ :: rows, congrArg (· + 1) counted, decided, ?_⟩
        simp only [List.flatMap_cons, RawAttribute.encode, List.append_assoc, List.nil_append]
      · rintro ⟨rows, counted, measured, rfl⟩
        cases rows with
        | nil => cases counted
        | cons raw rows =>
            obtain ⟨text, named, decided⟩ := (measures_cons _ _ _ _ _).mp measured
            refine ⟨raw.name, _, _, rfl, ⟨text, [], _, ⟨named, rfl⟩, ⟨raw.payload,
              rows.flatMap RawAttribute.encode, raw.fits, rfl,
              ⟨rows, Nat.succ.inj counted, decided, rfl⟩⟩, rfl⟩, ?_⟩
            simp only [List.flatMap_cons, RawAttribute.encode, List.append_assoc, List.nil_append]

theorem reads_codeLength (pool : RawPool) :
    Reads (codeLength pool.pool) (fun answer taken => ∃ table : Table RawAttribute,
      Measures pool none table.rows answer ∧ taken = table.encode RawAttribute.encode) :=
  Reads.counted fun count => reads_codeLengthAmong pool count none

end Attribute

namespace ClassFile

theorem reads_className (pool : RawPool) :
    Reads (do ofExcept (pool.pool.className (← Read.u16))) (fun name taken => ∃ index : UInt16,
      pool.className? index = some name ∧ taken = bigEndianBytes 2 index.toNat) := by
  refine (Reads.u16.bind fun index =>
    Reads.ofExcept (pool.pool.className index)).congr fun name taken => ?_
  simp only [pool.className_pool]
  constructor
  · rintro ⟨index, _, _, rfl, ⟨named, rfl⟩, rfl⟩
    exact ⟨index, named, List.append_nil _⟩
  · rintro ⟨index, named, rfl⟩
    exact ⟨index, _, [], rfl, ⟨named, rfl⟩, (List.append_nil _).symm⟩

theorem reads_field (pool : RawPool) (owner : String) :
    Reads (readField pool.pool owner) (fun field taken => ∃ row : RawMember,
      row.DescribesField pool field ∧ taken = row.encode) := by
  refine (Reads.u16.bind fun accessFlags => Reads.u16.bind fun name =>
    Reads.u16.bind fun descriptor =>
      (Reads.ofExcept (pool.pool.declared .field owner name descriptor)).bind fun texts =>
        Attribute.reads_skipTable.bind_pure fun _ =>
          (⟨accessFlags, texts.1, texts.2⟩ : Field)).congr fun field taken => ?_
  constructor
  · rintro ⟨accessFlags, _, _, rfl, ⟨name, _, _, rfl, ⟨descriptor, _, _, rfl, ⟨texts, _, _,
      ⟨declared, rfl⟩, ⟨_, ⟨attributes, _, rfl⟩, rfl⟩, rfl⟩, rfl⟩, rfl⟩, rfl⟩
    obtain ⟨named, shaped⟩ := (pool.declared_pool _ _ _ _ _ _).mp declared
    refine ⟨⟨accessFlags, name, descriptor, attributes⟩, ⟨rfl, named, shaped⟩, ?_⟩
    simp only [RawMember.encode, List.append_assoc, List.nil_append]
  · rintro ⟨row, ⟨flags, named, shaped⟩, rfl⟩
    obtain ⟨accessFlags, name, descriptor⟩ := field
    cases flags
    refine ⟨row.accessFlags, _, _, rfl, ⟨row.name, _, _, rfl, ⟨row.descriptor, _, _, rfl,
      ⟨(name, descriptor), [], _, ⟨(pool.declared_pool _ _ _ _ _ _).mpr ⟨named, shaped⟩, rfl⟩,
        ⟨(), ⟨row.attributes, trivial, rfl⟩, rfl⟩, rfl⟩, rfl⟩, rfl⟩, ?_⟩
    simp only [RawMember.encode, List.append_assoc, List.nil_append]

theorem reads_method (pool : RawPool) (owner : String) :
    Reads (readMethod pool.pool owner) (fun method taken => ∃ row : RawMember,
      (row.ResolvesAsMethod pool ∧ row.DescribesMethod pool method) ∧ taken = row.encode) := by
  refine (Reads.u16.bind fun accessFlags => Reads.u16.bind fun name =>
    Reads.u16.bind fun descriptor =>
      (Reads.ofExcept (pool.pool.declared .method owner name descriptor)).bind fun texts =>
        (Attribute.reads_codeLength pool).bind_pure fun codeLength =>
          (⟨accessFlags, texts.1, texts.2, codeLength⟩ : Method)).congr fun method taken => ?_
  constructor
  · rintro ⟨accessFlags, _, _, rfl, ⟨name, _, _, rfl, ⟨descriptor, _, _, rfl, ⟨texts, _, _,
      ⟨declared, rfl⟩, ⟨codeLength, ⟨attributes, measured, rfl⟩, rfl⟩, rfl⟩, rfl⟩, rfl⟩, rfl⟩
    obtain ⟨named, shaped⟩ := (pool.declared_pool _ _ _ _ _ _).mp declared
    refine ⟨⟨accessFlags, name, descriptor, attributes⟩, ⟨⟨?_, ?_, measured.named,
      measured.fits rfl⟩, ⟨rfl, named, shaped, measured.answer⟩⟩, ?_⟩
    · exact Option.isSome_of_eq_some named
    · exact Option.isSome_of_eq_some shaped
    · simp only [RawMember.encode, List.append_assoc, List.nil_append]
  · rintro ⟨row, ⟨resolves, ⟨flags, named, shaped, measured⟩⟩, rfl⟩
    obtain ⟨accessFlags, name, descriptor, codeLength⟩ := method
    cases flags
    refine ⟨row.accessFlags, _, _, rfl, ⟨row.name, _, _, rfl, ⟨row.descriptor, _, _, rfl,
      ⟨(name, descriptor), [], _, ⟨(pool.declared_pool _ _ _ _ _ _).mpr ⟨named, shaped⟩, rfl⟩,
        ⟨codeLength, ⟨row.attributes, ⟨resolves.attributes, fun _ => resolves.code, measured⟩,
          rfl⟩, rfl⟩, rfl⟩, rfl⟩, rfl⟩, ?_⟩
    simp only [RawMember.encode, List.append_assoc, List.nil_append]

/-- What precedes the tables of a class is followed by the name of what it extends, if that is not
left out. -/
theorem reads_superName {α : Type} (pool : RawPool) (superClass : UInt16)
    {next : Option String → Read α} {spells : Option String → α → Bytes → Prop}
    (reads : ∀ superName, Reads (next superName) (spells superName)) :
    Reads (do
      let superName ←
        if superClass = 0 then pure none else some <$> ofExcept (pool.pool.className superClass)
      next superName) (fun answer taken =>
        (superClass ≠ 0 → (pool.className? superClass).isSome) ∧
          spells (if superClass = 0 then none else pool.className? superClass) answer taken) := by
  by_cases absent : superClass = 0
  · simp only [if_pos absent, pure_bind]
    refine (reads none).congr fun answer taken => ?_
    constructor
    · intro spelled
      exact ⟨fun present => absurd absent present, spelled⟩
    · rintro ⟨_, spelled⟩
      exact spelled
  · simp only [if_neg absent, bind_map_left]
    refine ((Reads.ofExcept (pool.pool.className superClass)).bind fun name =>
      reads (some name)).congr fun answer taken => ?_
    simp only [pool.className_pool]
    constructor
    · rintro ⟨name, _, rest, ⟨named, rfl⟩, spelled, rfl⟩
      rw [named]
      exact ⟨fun _ => rfl, spelled⟩
    · rintro ⟨present, spelled⟩
      obtain ⟨name, named⟩ := Option.isSome_iff_exists.mp (present absent)
      rw [named] at spelled
      exact ⟨name, [], taken, ⟨named, rfl⟩, spelled, rfl⟩

theorem reads_tables (pool : RawPool) (name : String) (superName : Option String)
    (accessFlags minorVersion majorVersion : UInt16) (source contentHash : String) (own : Bool) :
    Reads (do
      let interfaces ← readTable (do ofExcept (pool.pool.className (← Read.u16)))
      let fields ← readTable (readField pool.pool name)
      let methods ← readTable (readMethod pool.pool name)
      return (({ name, superName, interfaces, accessFlags, minorVersion, majorVersion, fields,
                 methods, source, contentHash, own } : ClassFile), pool.pool))
      (fun answer taken => ∃ (interfaces : Table UInt16) (fields methods : Table RawMember),
        List.Forall₂ (fun index name => pool.className? index = some name) interfaces.rows
          answer.1.interfaces ∧
        List.Forall₂ (RawMember.DescribesField pool) fields.rows answer.1.fields ∧
        List.Forall₂ (fun row method => row.ResolvesAsMethod pool ∧
          row.DescribesMethod pool method) methods.rows answer.1.methods ∧
        answer = ({ name, superName, accessFlags, minorVersion, majorVersion, source,
                    contentHash, own, interfaces := answer.1.interfaces,
                    fields := answer.1.fields, methods := answer.1.methods }, pool.pool) ∧
        taken = interfaces.encode (fun index => bigEndianBytes 2 index.toNat) ++
          (fields.encode RawMember.encode ++ methods.encode RawMember.encode)) := by
  refine ((reads_table (reads_className pool)).bind fun interfaces =>
    (reads_table (reads_field pool name)).bind fun fields =>
      (reads_table (reads_method pool name)).bind_pure fun methods =>
        (({ name, superName, interfaces, accessFlags, minorVersion, majorVersion, fields,
            methods, source, contentHash, own } : ClassFile), pool.pool)).congr
    fun answer taken => ?_
  constructor
  · rintro ⟨_, _, _, ⟨interfaces, interfacesNamed, rfl⟩, ⟨_, _, _, ⟨fields, fieldsDescribed, rfl⟩,
      ⟨_, ⟨methods, methodsDescribed, rfl⟩, rfl⟩, rfl⟩, rfl⟩
    exact ⟨interfaces, fields, methods, interfacesNamed, fieldsDescribed, methodsDescribed, rfl, rfl⟩
  · rintro ⟨interfaces, fields, methods, interfacesNamed, fieldsDescribed, methodsDescribed,
      built, rfl⟩
    exact ⟨_, _, _, ⟨interfaces, interfacesNamed, rfl⟩, ⟨_, _, _, ⟨fields, fieldsDescribed, rfl⟩,
      ⟨_, ⟨methods, methodsDescribed, rfl⟩, built⟩, rfl⟩, rfl⟩

/-- Each row that describes something resolves. -/
theorem forall_of_forall₂ {ρ α : Type} {means : ρ → α → Prop} {resolves : ρ → Prop}
    {rows : List ρ} {values : List α} (related : List.Forall₂ means rows values)
    (resolved : ∀ row value, means row value → resolves row) : ∀ row ∈ rows, resolves row := by
  induction related with
  | nil => exact nofun
  | cons meant _ ih => exact List.forall_mem_cons.mpr ⟨resolved _ _ meant, ih⟩

/-- What stands behind the pool, read with the pool at hand. -/
theorem reads_behindPool (pool : RawPool) (minorVersion majorVersion : UInt16)
    (source contentHash : String) (own : Bool) :
    Reads (do
      let accessFlags ← Read.u16
      let thisIndex ← Read.u16
      let superIndex ← Read.u16
      let name ← ofExcept (pool.pool.className thisIndex)
      let superName ←
        if superIndex = 0 then pure none else some <$> ofExcept (pool.pool.className superIndex)
      let interfaces ← readTable (do ofExcept (pool.pool.className (← Read.u16)))
      let fields ← readTable (readField pool.pool name)
      let methods ← readTable (readMethod pool.pool name)
      return (({ name, superName, interfaces, accessFlags, minorVersion, majorVersion, fields,
                 methods, source, contentHash, own } : ClassFile), pool.pool))
      (fun answer taken => ∃ raw : RawClass, raw.pool = pool ∧ raw.minorVersion = minorVersion ∧
        raw.majorVersion = majorVersion ∧ raw.Resolvable ∧ raw.Describes answer.1 ∧
        answer.1.source = source ∧ answer.1.contentHash = contentHash ∧ answer.1.own = own ∧
        answer.2 = pool.pool ∧ taken = raw.encodeIdentity ++ raw.encodeTables) := by
  refine (Reads.u16.bind fun accessFlags => Reads.u16.bind fun thisClass =>
    Reads.u16.bind fun superClass =>
      (Reads.ofExcept (pool.pool.className thisClass)).bind fun name =>
        reads_superName pool superClass fun superName => reads_tables pool name superName
          accessFlags minorVersion majorVersion source contentHash own).congr fun answer taken => ?_
  constructor
  · rintro ⟨accessFlags, _, _, rfl, ⟨thisClass, _, _, rfl, ⟨superClass, _, _, rfl, ⟨name, _, _,
      ⟨named, rfl⟩, ⟨superNamed, interfaces, fields, methods, interfacesNamed, fieldsDescribed,
        methodsDescribed, built, rfl⟩, rfl⟩, rfl⟩, rfl⟩, rfl⟩
    rw [pool.className_pool] at named
    obtain ⟨methodsResolve, methodsDescribed⟩ := (List.forall₂_and_left _ _).mp methodsDescribed
    rw [built]
    refine ⟨⟨minorVersion, majorVersion, pool, accessFlags, thisClass, superClass, interfaces,
      fields, methods⟩, rfl, rfl, rfl, ⟨?_, superNamed, ?_, ?_, methodsResolve⟩,
      ⟨rfl, rfl, rfl, named, rfl, interfacesNamed, fieldsDescribed, methodsDescribed⟩,
      rfl, rfl, rfl, rfl, ?_⟩
    · exact Option.isSome_of_eq_some named
    · exact forall_of_forall₂ interfacesNamed fun _ _ => Option.isSome_of_eq_some
    · exact forall_of_forall₂ fieldsDescribed fun _ _ described =>
        ⟨Option.isSome_of_eq_some described.name, Option.isSome_of_eq_some described.descriptor⟩
    · simp only [RawClass.encodeIdentity, RawClass.encodeTables, List.append_assoc, List.nil_append]
  · rintro ⟨raw, rfl, rfl, rfl, resolves, describes, rfl, rfl, rfl, pooled, rfl⟩
    refine ⟨raw.accessFlags, _, _, rfl, ⟨raw.thisClass, _, _, rfl, ⟨raw.superClass, _, _, rfl,
      ⟨answer.1.name, [], _, ⟨(raw.pool.className_pool _ _).mpr describes.name, rfl⟩,
        ⟨resolves.superClass, raw.interfaces, raw.fields, raw.methods, describes.interfaces,
          describes.fields, (List.forall₂_and_left _ _).mpr ⟨resolves.methods, describes.methods⟩, ?_,
          rfl⟩, rfl⟩, rfl⟩, rfl⟩, ?_⟩
    · rw [← describes.superName, ← describes.accessFlags, ← describes.minorVersion,
        ← describes.majorVersion, ← pooled]
    · simp only [RawClass.encodeIdentity, RawClass.encodeTables, List.append_assoc, List.nil_append]

/-- Nothing is read behind another magic number. -/
theorem reads_magic {α : Type} {next : Read α} {spells : α → Bytes → Prop}
    (reads : Reads next spells) :
    Reads (do
      let found ← Read.u32
      if found ≠ magic then
        throw (.ofCause (.wrongMagic found))
      next) (fun answer taken => ∃ rest, spells answer rest ∧
        taken = bigEndianBytes 4 magic.toNat ++ rest) := by
  have guarded (found : UInt32) : Reads (if found ≠ magic then do
        throw (.ofCause (.wrongMagic found))
        next
      else next) (fun answer rest => found = magic ∧ spells answer rest) := by
    split
    · rename_i other
      refine (Reads.throw_bind _ _).congr fun answer rest => ?_
      simp only [other, false_and]
    · rename_i same
      refine reads.congr fun answer rest => ?_
      simp only [not_not.mp same, true_and]
  refine (Reads.u32.bind guarded).congr fun answer taken => ?_
  constructor
  · rintro ⟨_, _, rest, rfl, ⟨rfl, spelled⟩, rfl⟩
    exact ⟨rest, spelled, rfl⟩
  · rintro ⟨rest, spelled, rfl⟩
    exact ⟨magic, _, rest, rfl, ⟨rfl, spelled⟩, rfl⟩

/-- Classes are read exactly from the layouts that resolve, for what these describe. -/
theorem reads_read (source contentHash : String) (own : Bool) :
    Reads (read source contentHash own) (fun answer taken => ∃ raw : RawClass,
      raw.Resolvable ∧ raw.Describes answer.1 ∧ answer.1.source = source ∧
        answer.1.contentHash = contentHash ∧ answer.1.own = own ∧ answer.2 = raw.pool.pool ∧
        taken = raw.encode) := by
  refine Reads.congr (reads_magic (Reads.u16.bind fun minorVersion => Reads.u16.bind
    fun majorVersion => Pool.reads.bind_spelling fun pool =>
      reads_behindPool pool minorVersion majorVersion source contentHash own))
    fun answer taken => ?_
  constructor
  · rintro ⟨_, ⟨_, _, _, rfl, ⟨_, _, _, rfl, ⟨_, _, ⟨raw, rfl, rfl, rfl, resolves, describes,
      sourced, hashed, owned, pooled, rfl⟩, rfl⟩, rfl⟩, rfl⟩, rfl⟩
    refine ⟨raw, resolves, describes, sourced, hashed, owned, pooled, ?_⟩
    simp only [RawClass.encode, RawClass.encodeHead, List.append_assoc]
  · rintro ⟨raw, resolves, describes, sourced, hashed, owned, pooled, rfl⟩
    refine ⟨_, ⟨raw.minorVersion, _, _, rfl, ⟨raw.majorVersion, _, _, rfl, ⟨raw.pool, _,
      ⟨raw, rfl, rfl, rfl, resolves, describes, sourced, hashed, owned, pooled, rfl⟩, rfl⟩, rfl⟩,
      rfl⟩, ?_⟩
    simp only [RawClass.encode, RawClass.encodeHead, List.append_assoc]

end ClassFile

end Classpath
