import Classpath.Proofs.ClassFile.Pool

/-!
Layouts are told apart by their bytes: of two that begin one run of bytes, neither ends before the
other, and they are the same.
-/

set_option autoImplicit false

namespace Classpath

/-- Two encodings in front of one run of bytes are of one value, and end at one place. -/
def PrefixFree {ρ : Type} (encode : ρ → Bytes) : Prop :=
  ∀ a b s t, encode a ++ s = encode b ++ t → a = b ∧ s = t

/-- What a read gives is told by the bytes that spell it. -/
theorem Reads.unambiguous {α : Type} {read : Read α} {spells : α → Bytes → Prop}
    (reads : Reads read spells) {a b : α} {front other s t : Bytes} (spelledA : spells a front)
    (spelledB : spells b other) (same : front ++ s = other ++ t) :
    a = b ∧ front = other ∧ s = t := by
  have ranA := reads.eval spelledA 0 s
  have ranB := reads.eval spelledB 0 t
  rw [same, ranB] at ranA
  simp only [EStateM.Result.ok.injEq, Cursor.mk.injEq] at ranA
  obtain ⟨rfl, _, rfl⟩ := ranA
  exact ⟨rfl, List.append_cancel_right same, rfl⟩

namespace PrefixFree

theorem word : PrefixFree (fun word : UInt16 => bigEndianBytes 2 word.toNat) := by
  intro a b s t same
  obtain ⟨values, _, rest⟩ := Reads.u16.unambiguous rfl rfl same
  exact ⟨values, rest⟩

/-- Lengths that fit in their bytes are told apart, and so is what they measure. -/
theorem measured (width : Nat) {front other s t : Bytes}
    (fitsFront : front.length < wordCount width) (fitsOther : other.length < wordCount width)
    (same : bigEndianBytes width front.length ++ (front ++ s) =
      bigEndianBytes width other.length ++ (other ++ t)) : front = other ∧ s = t := by
  obtain ⟨lengths, rest⟩ := List.append_inj same (by simp only [length_bigEndianBytes])
  exact List.append_inj rest (bigEndianBytes_injective _ _ _ fitsFront fitsOther lengths)

theorem flatMap {ρ : Type} {encode : ρ → Bytes} (free : PrefixFree encode) (a b : List ρ)
    (s t : Bytes) (counted : a.length = b.length)
    (same : a.flatMap encode ++ s = b.flatMap encode ++ t) : a = b ∧ s = t := by
  induction a generalizing b with
  | nil =>
      cases b with
      | nil => exact ⟨rfl, same⟩
      | cons => cases counted
  | cons first rest ih =>
      cases b with
      | nil => cases counted
      | cons other others =>
          simp only [List.flatMap_cons, List.append_assoc] at same
          obtain ⟨rfl, sameRest⟩ := free _ _ _ _ same
          obtain ⟨rfl, sameEnd⟩ := ih others (Nat.succ.inj counted) sameRest
          exact ⟨rfl, sameEnd⟩

theorem table {ρ : Type} {encode : ρ → Bytes} (free : PrefixFree encode) :
    PrefixFree (Table.encode encode) := by
  rintro ⟨a, fitsA⟩ ⟨b, fitsB⟩ s t same
  simp only [Table.encode, List.append_assoc] at same
  obtain ⟨counts, rows⟩ := List.append_inj same (by simp only [length_bigEndianBytes])
  obtain ⟨rfl, rest⟩ :=
    free.flatMap a b s t (bigEndianBytes_injective 2 _ _ fitsA fitsB counts) rows
  exact ⟨rfl, rest⟩

theorem rawAttribute : PrefixFree RawAttribute.encode := by
  rintro ⟨nameA, payloadA, fitsA⟩ ⟨nameB, payloadB, fitsB⟩ s t same
  simp only [RawAttribute.encode, List.append_assoc] at same
  obtain ⟨rfl, behindName⟩ := word _ _ _ _ same
  obtain ⟨rfl, rest⟩ := measured 4 fitsA fitsB behindName
  exact ⟨rfl, rest⟩

theorem rawMember : PrefixFree RawMember.encode := by
  rintro ⟨flagsA, nameA, descriptorA, attributesA⟩ ⟨flagsB, nameB, descriptorB, attributesB⟩ s t same
  simp only [RawMember.encode, List.append_assoc] at same
  obtain ⟨rfl, behindFlags⟩ := word _ _ _ _ same
  obtain ⟨rfl, behindName⟩ := word _ _ _ _ behindFlags
  obtain ⟨rfl, behindDescriptor⟩ := word _ _ _ _ behindName
  obtain ⟨rfl, rest⟩ := rawAttribute.table _ _ _ _ behindDescriptor
  exact ⟨rfl, rest⟩

/-- A text is not told by what it decodes to, but its bytes are all written. -/
theorem rawConstant : PrefixFree RawConstant.encode := by
  intro a b s t same
  obtain ⟨decoded, encoded, rest⟩ :=
    (Constant.reads 0).unambiguous ⟨a, rfl, rfl⟩ ⟨b, rfl, rfl⟩ same
  refine ⟨?_, rest⟩
  cases a with
  | text payloadA fitsA =>
      cases b with
      | text payloadB fitsB =>
          have bodies := List.cons.inj encoded
          have payloads := measured 2 (s := []) (t := []) fitsA fitsB (by
            rw [List.append_nil, List.append_nil]
            exact bodies.2)
          obtain ⟨rfl, _⟩ := payloads
          rfl
      | other constant plain => exact absurd decoded.symm (plain _)
  | other constant plain =>
      cases b with
      | text payloadB fitsB => exact absurd decoded (plain _)
      | other constantB plainB =>
          cases decoded
          rfl

/-- Constants that fill the same places are as many. -/
theorem constants (count index : Nat) (a b : List RawConstant) (s t : Bytes)
    (filledA : Fills count index a) (filledB : Fills count index b)
    (same : a.flatMap RawConstant.encode ++ s = b.flatMap RawConstant.encode ++ t) :
    a = b ∧ s = t := by
  induction a generalizing index b with
  | nil =>
      cases b with
      | nil => exact ⟨rfl, same⟩
      | cons other others => exact absurd filledB.1 (Nat.not_lt_of_le filledA)
  | cons first rest ih =>
      cases b with
      | nil => exact absurd filledA.1 (Nat.not_lt_of_le filledB)
      | cons other others =>
          simp only [List.flatMap_cons, List.append_assoc] at same
          obtain ⟨rfl, sameRest⟩ := rawConstant _ _ _ _ same
          obtain ⟨rfl, sameEnd⟩ := ih _ others filledA.2 filledB.2 sameRest
          exact ⟨rfl, sameEnd⟩

theorem rawPool : PrefixFree RawPool.encode := by
  rintro ⟨countA, constantsA, filledA⟩ ⟨countB, constantsB, filledB⟩ s t same
  simp only [RawPool.encode, List.append_assoc] at same
  obtain ⟨rfl, behindCount⟩ := word _ _ _ _ same
  obtain ⟨rfl, rest⟩ := constants _ _ _ _ _ _ filledA filledB behindCount
  exact ⟨rfl, rest⟩

theorem rawClass : PrefixFree RawClass.encode := by
  rintro ⟨minorA, majorA, poolA, flagsA, thisA, superA, interfacesA, fieldsA, methodsA⟩
    ⟨minorB, majorB, poolB, flagsB, thisB, superB, interfacesB, fieldsB, methodsB⟩ s t same
  simp only [RawClass.encode, RawClass.encodeHead, RawClass.encodeIdentity, RawClass.encodeTables,
    List.append_assoc] at same
  obtain ⟨rfl, behindMinor⟩ := word _ _ _ _ (List.append_cancel_left same)
  obtain ⟨rfl, behindMajor⟩ := word _ _ _ _ behindMinor
  obtain ⟨rfl, behindPool⟩ := rawPool _ _ _ _ behindMajor
  obtain ⟨rfl, behindFlags⟩ := word _ _ _ _ behindPool
  obtain ⟨rfl, behindThis⟩ := word _ _ _ _ behindFlags
  obtain ⟨rfl, behindSuper⟩ := word _ _ _ _ behindThis
  obtain ⟨rfl, behindInterfaces⟩ := word.table _ _ _ _ behindSuper
  obtain ⟨rfl, behindFields⟩ := rawMember.table _ _ _ _ behindInterfaces
  obtain ⟨rfl, rest⟩ := rawMember.table _ _ _ _ behindFields
  exact ⟨rfl, rest⟩

end PrefixFree

end Classpath
