import Classpath.Proofs.Steady
import Classpath.ClassFile.Attribute

/-!
The two walks over an attribute table beside each other. The one that measures code cuts a code
attribute up where the other steps over it whole; both end at one place unless the first refuses the
table, for a name or for a code attribute that is too short.

Main statement: `Attribute.codeLength_beside_skipTable`.
-/

set_option autoImplicit false

namespace Classpath

namespace Read

variable {α β γ δ : Type} {refuses : Error → Prop} {related : α → β → Prop} {first : Read α}
  {second : Read β}

/-- From every place, both reads give related answers and leave one cursor, or the first fails; and
then it refuses, or the second fails too. -/
def AlignedUnless (refuses : Error → Prop) (related : α → β → Prop) (first : Read α)
    (second : Read β) : Prop :=
  ∀ cursor : Cursor,
    (∃ answer other after, first cursor = .ok answer after ∧ second cursor = .ok other after ∧
      related answer other) ∨
    ∃ error after, first cursor = .error error after ∧
      (refuses error ∨ ∃ otherError otherAfter, second cursor = .error otherError otherAfter)

namespace AlignedUnless

theorem of_inStep (inStep : InStep related first second) :
    AlignedUnless refuses related first second := by
  intro cursor
  rcases inStep cursor with both | ⟨error, otherError, after, otherAfter, failed, failedOther, _⟩
  · exact Or.inl both
  · exact Or.inr ⟨error, after, failed, Or.inr ⟨otherError, otherAfter, failedOther⟩⟩

theorem throw {error : Error} (refused : refuses error) :
    AlignedUnless refuses related (throw error) second :=
  fun cursor => Or.inr ⟨error, cursor, rfl, Or.inl refused⟩

theorem ofExcept_bind {further : γ → β → Prop} {outcome : Except Error α} {next : α → Read γ}
    (failing : ∀ error, outcome = .error error → refuses error)
    (rest : ∀ value, AlignedUnless refuses further (next value) second) :
    AlignedUnless refuses further (ofExcept outcome >>= next) second := by
  cases outcome with
  | error error => exact throw (failing error rfl)
  | ok value => exact rest value

theorem bind {further : γ → δ → Prop} {next : α → Read γ} {otherNext : β → Read δ}
    (start : AlignedUnless refuses related first second)
    (rest : ∀ answer other, related answer other →
      AlignedUnless refuses further (next answer) (otherNext other)) :
    AlignedUnless refuses further (first >>= next) (second >>= otherNext) := by
  intro cursor
  rcases start cursor with ⟨answer, other, after, ran, ranOther, same⟩ |
    ⟨error, after, failed, reason⟩
  · rw [Reads.bind_of_ok ran, Reads.bind_of_ok ranOther]
    exact rest answer other same after
  · refine Or.inr ⟨error, after, bind_of_error failed, ?_⟩
    rcases reason with refused | ⟨otherError, otherAfter, failedOther⟩
    · exact Or.inl refused
    · exact Or.inr ⟨otherError, otherAfter, bind_of_error failedOther⟩

end AlignedUnless

end Read

namespace Attribute

open Read

/-- Why a table is not measured although it can be stepped over: the index of a name leads to no
text, or an attribute that should begin with the size of the code is shorter than that. -/
inductive Refuses (pool : Pool) : Error → Prop
  | nothingThere (index : UInt16) : Refuses pool (.ofCause (.poolIndexOutOfRange index pool.size))
  | noText (index : UInt16) : Refuses pool (.ofCause (.poolTypeMismatch index "Utf8"))
  | tooShort (length : UInt32) (short : length < 8) :
      Refuses pool (.ofCause (.truncatedAttribute codeName length))

variable {pool : Pool}

/-- A refusal is not for want of bytes. -/
theorem Refuses.not_endOfBytes {error : Error} (refused : Refuses pool error) :
    ¬ error.cause.EndOfBytes := by
  intro ended
  cases refused <;> cases ended

theorem refuses_of_utf8 {index : UInt16} {error : Error} (failed : pool.utf8 index = .error error) :
    Refuses pool error := by
  unfold Pool.utf8 Pool.entry at failed
  cases found : pool.get? index with
  | none =>
      rw [found] at failed
      cases failed
      exact .nothingThere index
  | some constant =>
      rw [found] at failed
      cases constant with
      | utf8 text => cases failed
      | _ =>
          cases failed
          exact .noText index

/-- A code attribute that is long enough is cut up and still taken whole. -/
theorem takes_cut {length : UInt32} (enough : ¬ length < 8) :
    Takes length.toNat (do
      Read.discard 4
      let codeLength ← Read.u32
      Read.discard (length.toNat - 8)
      return codeLength) := by
  have eight : 8 ≤ length.toNat := UInt32.le_iff_toNat_le.mp (UInt32.not_lt.mp enough)
  have parts : 4 + (4 + (length.toNat - 8)) = length.toNat := by omega
  have takes := (Takes.discard 4).bind fun _ => Takes.u32.bind fun codeLength =>
    (Takes.discard (length.toNat - 8)).bind_pure fun _ => codeLength
  rwa [parts] at takes

theorem codeLengthAmong_aligned (count : Nat) (found : Option UInt32) :
    AlignedUnless (Refuses pool) (fun _ _ => True) (codeLengthAmong pool count found)
      (skipMany count) := by
  induction count generalizing found with
  | zero => exact .of_inStep (.pure trivial)
  | succ count ih =>
      rw [codeLengthAmong, skipMany]
      apply (AlignedUnless.of_inStep (Takes.u16.inStep (Takes.discard 2))).bind
      intro index _ _
      apply AlignedUnless.ofExcept_bind
      · intro error failed
        exact refuses_of_utf8 failed
      · intro name
        apply (AlignedUnless.of_inStep Takes.u32.inStep_self).bind
        intro length _ same
        cases same
        split
        next code =>
          split
          next short =>
            rw [code.2]
            exact .throw (.tooShort length short)
          next enough =>
            have cut : AlignedUnless (Refuses pool) (fun _ _ => True) _ _ :=
              .of_inStep ((takes_cut enough).inStep (Takes.discard length.toNat))
            have whole := cut.bind fun codeLength _ _ => ih (some codeLength)
            simpa only [bind_assoc, pure_bind] using whole
        · exact (AlignedUnless.of_inStep (Takes.discard length.toNat).inStep_self).bind
            fun _ _ _ => ih found

theorem codeLength_aligned (pool : Pool) :
    AlignedUnless (Refuses pool) (fun _ _ => True) (codeLength pool) skipTable :=
  AlignedUnless.bind (.of_inStep Takes.u16.inStep_self) fun count _ same =>
    same ▸ codeLengthAmong_aligned count.toNat none

/-- Wherever a table is measured it is stepped over, to the same place. Where one is stepped over,
it is measured to the same place or refused, but never for want of bytes. -/
theorem codeLength_beside_skipTable (pool : Pool) (cursor : Cursor) :
    (∀ answer after, codeLength pool cursor = .ok answer after →
      skipTable cursor = .ok () after) ∧
    ∀ after, skipTable cursor = .ok () after →
      (∃ answer, codeLength pool cursor = .ok answer after) ∨
      ∃ error stop, codeLength pool cursor = .error error stop ∧ Refuses pool error ∧
        ¬ error.cause.EndOfBytes := by
  rcases codeLength_aligned pool cursor with ⟨answer, _, after, ran, skipped, _⟩ |
    ⟨error, stop, failed, reason⟩
  · constructor
    · intro _ _ same
      rw [ran] at same
      cases same
      exact skipped
    · intro _ same
      rw [skipped] at same
      cases same
      exact Or.inl ⟨answer, ran⟩
  · constructor
    · intro _ _ same
      rw [failed] at same
      cases same
    · intro _ same
      rcases reason with refused | ⟨_, _, failedOther⟩
      · exact Or.inr ⟨error, stop, failed, refused, refused.not_endOfBytes⟩
      · rw [same] at failedOther
        cases failedOther

/-- One code attribute of nine bytes, and one of two that is only stepped over. -/
def measuredTable : Bytes :=
  [0, 2, 0, 1, 0, 0, 0, 9, 0, 1, 0, 1, 0, 0, 0, 1, 177, 0, 1, 0, 0, 0, 2, 4, 4]

/-- A code attribute of two bytes alone. -/
def refusedTable : Bytes := [0, 1, 0, 1, 0, 0, 0, 2, 4, 4]

theorem codeLength_beside_skipTable_specimen :
    let pool : Pool := ⟨#[none, some (.utf8 codeName)]⟩
    codeLength pool (.start measuredTable) = .ok (some 1) ⟨25, []⟩ ∧
      skipTable (.start measuredTable) = .ok () ⟨25, []⟩ ∧
      skipTable (.start refusedTable) = .ok () ⟨10, []⟩ ∧
      ∃ error stop, codeLength pool (.start refusedTable) = .error error stop ∧
        Refuses pool error := by
  intro pool
  have measured : codeLength pool (.start measuredTable) = .ok (some 1) ⟨25, []⟩ := by rfl
  have skipped : skipTable (.start refusedTable) = .ok () ⟨10, []⟩ := by rfl
  refine ⟨measured, (codeLength_beside_skipTable pool _).1 _ _ measured, skipped, ?_⟩
  rcases (codeLength_beside_skipTable pool _).2 _ skipped with ⟨answer, other⟩ |
    ⟨error, stop, failed, refused, _⟩
  · cases other
  · exact ⟨error, stop, failed, refused⟩

end Attribute

end Classpath
