import Classpath.Cursor
import Classpath.Proofs.Reads

/-!
Two reads side by side over the same bytes. They are in step if they either both answer, and stop at
one place, or both fail, and for like causes. Reads that take a fixed number of bytes each are in
step if the numbers are the same, however they are cut up.
-/

set_option autoImplicit false

namespace Classpath

/-- Fewer bytes are left than a number, or a run of bytes, takes. -/
inductive Cause.EndOfBytes : Cause → Prop
  | exhausted : EndOfBytes .bytesExhausted
  | truncated (wanted remaining : Nat) : EndOfBytes (.bytesTruncated wanted remaining)

/-- For both the bytes end, or both meet one unknown tag at one place of the pool. -/
inductive Cause.Alike : Cause → Cause → Prop
  | ended {one other : Cause} (first : one.EndOfBytes) (second : other.EndOfBytes) : Alike one other
  | unknownTag (tag : UInt8) (index : UInt16) :
      Alike (.unknownConstantTag tag index) (.unknownConstantTag tag index)

namespace Read

/-- From every place, both reads give related answers and leave one cursor, or both fail for like
causes. -/
def InStep {α β : Type} (related : α → β → Prop) (first : Read α) (second : Read β) : Prop :=
  ∀ cursor : Cursor,
    (∃ answer other after, first cursor = .ok answer after ∧ second cursor = .ok other after ∧
      related answer other) ∨
    ∃ error otherError after otherAfter, first cursor = .error error after ∧
      second cursor = .error otherError otherAfter ∧ error.cause.Alike otherError.cause

/-- A read takes `width` bytes, whatever they are, and fails only where fewer are left. -/
structure Takes {α : Type} (width : Nat) (read : Read α) : Prop where
  enough : ∀ cursor : Cursor, width ≤ cursor.rest.length →
    ∃ answer, read cursor = .ok answer ⟨cursor.position + width, cursor.rest.drop width⟩
  short : ∀ cursor : Cursor, cursor.rest.length < width →
    ∃ error after, read cursor = .error error after ∧ error.cause.EndOfBytes

variable {α β γ δ : Type}

theorem bind_of_error {first : Read α} {next : α → Read β} {cursor after : Cursor} {error : Error}
    (failed : first cursor = .error error after) :
    (first >>= next) cursor = .error error after := by
  change EStateM.bind first next cursor = _
  rw [EStateM.bind, failed]

namespace Takes

theorem word (width : Nat) : Takes width (Read.word width) := by
  constructor
  · intro cursor enough
    have sized : (cursor.rest.take width).length = width := List.length_take_of_le enough
    refine ⟨cursor.rest.take width, ?_⟩
    simp only [Read.word, sized, ↓reduceIte]
  · intro cursor short
    have missing : ¬ (cursor.rest.take width).length = width := by
      simp only [List.length_take]
      omega
    have failed : Read.word width cursor = .error (.ofCause .bytesExhausted)
        ⟨cursor.position + (cursor.rest.take width).length, cursor.rest.drop width⟩ := by
      simp only [Read.word, missing, ↓reduceIte]
    exact ⟨_, _, failed, .exhausted⟩

theorem slice (length : Nat) : Takes length (Read.slice length) := by
  constructor
  · intro cursor enough
    have sized : (cursor.rest.take length).length = length := List.length_take_of_le enough
    refine ⟨cursor.rest.take length, ?_⟩
    simp only [Read.slice, sized, ↓reduceIte]
  · intro cursor short
    have missing : ¬ (cursor.rest.take length).length = length := by
      simp only [List.length_take]
      omega
    have failed : Read.slice length cursor =
        .error (.ofCause (.bytesTruncated length cursor.remaining)) cursor := by
      simp only [Read.slice, missing, ↓reduceIte]
    exact ⟨_, _, failed, .truncated _ _⟩

/-- What is taken one behind the other is taken together. -/
theorem bind {read : Read α} {next : α → Read β} {front back : Nat} (first : Takes front read)
    (second : ∀ answer, Takes back (next answer)) : Takes (front + back) (read >>= next) := by
  constructor
  · intro cursor enough
    obtain ⟨answer, ran⟩ := first.enough cursor (by omega)
    have left : back ≤ (cursor.rest.drop front).length := by
      rw [List.length_drop]
      omega
    obtain ⟨value, ranNext⟩ := (second answer).enough
      ⟨cursor.position + front, cursor.rest.drop front⟩ left
    refine ⟨value, ?_⟩
    rw [Reads.bind_of_ok ran, ranNext, List.drop_drop, Nat.add_assoc]
  · intro cursor short
    by_cases enough : front ≤ cursor.rest.length
    · obtain ⟨answer, ran⟩ := first.enough cursor enough
      have left : (cursor.rest.drop front).length < back := by
        rw [List.length_drop]
        omega
      obtain ⟨error, after, failed, ended⟩ := (second answer).short
        ⟨cursor.position + front, cursor.rest.drop front⟩ left
      exact ⟨error, after, by rw [Reads.bind_of_ok ran, failed], ended⟩
    · obtain ⟨error, after, failed, ended⟩ := first.short cursor (by omega)
      exact ⟨error, after, bind_of_error failed, ended⟩

theorem pure (answer : α) : Takes 0 (Pure.pure answer : Read α) := by
  constructor
  · intro cursor _
    exact ⟨answer, rfl⟩
  · intro cursor short
    exact absurd short (Nat.not_lt_zero _)

/-- Working on an answer takes no bytes. -/
theorem bind_pure {read : Read α} {width : Nat} (takes : Takes width read) (work : α → β) :
    Takes width (read >>= fun answer => Pure.pure (work answer)) :=
  takes.bind fun answer => pure (work answer)

theorem discard (length : Nat) : Takes length (Read.discard length) :=
  (slice length).bind_pure fun _ => ()

theorem u8 : Takes 1 Read.u8 := (word 1).bind_pure _

theorem u16 : Takes 2 Read.u16 := (word 2).bind_pure _

theorem u32 : Takes 4 Read.u32 := (word 4).bind_pure _

theorem u64 : Takes 8 Read.u64 := (word 8).bind_pure _

theorem i32 : Takes 4 Read.i32 := u32.bind_pure _

theorem i64 : Takes 8 Read.i64 := u64.bind_pure _

/-- What takes the same number of bytes is in step. -/
theorem inStep {first : Read α} {second : Read β} {width : Nat} (one : Takes width first)
    (other : Takes width second) : InStep (fun _ _ => True) first second := by
  intro cursor
  by_cases enough : width ≤ cursor.rest.length
  · obtain ⟨answer, ran⟩ := one.enough cursor enough
    obtain ⟨value, ranOther⟩ := other.enough cursor enough
    exact Or.inl ⟨answer, value, _, ran, ranOther, trivial⟩
  · obtain ⟨error, after, failed, ended⟩ := one.short cursor (by omega)
    obtain ⟨fault, afterOther, failedOther, endedOther⟩ := other.short cursor (by omega)
    exact Or.inr ⟨error, fault, after, afterOther, failed, failedOther, .ended ended endedOther⟩

/-- A read of the same bytes gives the same answer. -/
theorem inStep_self {read : Read α} {width : Nat} (takes : Takes width read) :
    InStep Eq read read := by
  intro cursor
  by_cases enough : width ≤ cursor.rest.length
  · obtain ⟨answer, ran⟩ := takes.enough cursor enough
    exact Or.inl ⟨answer, answer, _, ran, ran, rfl⟩
  · obtain ⟨error, after, failed, ended⟩ := takes.short cursor (by omega)
    exact Or.inr ⟨error, error, after, after, failed, failed, .ended ended ended⟩

end Takes

namespace InStep

variable {related : α → β → Prop} {first : Read α} {second : Read β}

theorem pure {answer : α} {other : β} (same : related answer other) :
    InStep related (Pure.pure answer) (Pure.pure other) :=
  fun cursor => Or.inl ⟨answer, other, cursor, rfl, rfl, same⟩

theorem throw_unknownTag (related : α → β → Prop) (tag : UInt8) (index : UInt16) :
    InStep related (throw (.ofCause (.unknownConstantTag tag index)))
      (throw (.ofCause (.unknownConstantTag tag index))) :=
  fun cursor => Or.inr ⟨_, _, cursor, cursor, rfl, rfl, .unknownTag tag index⟩

theorem bind {further : γ → δ → Prop} {next : α → Read γ} {otherNext : β → Read δ}
    (start : InStep related first second)
    (rest : ∀ answer other, related answer other → InStep further (next answer) (otherNext other)) :
    InStep further (first >>= next) (second >>= otherNext) := by
  intro cursor
  rcases start cursor with ⟨answer, other, after, ran, ranOther, same⟩ |
    ⟨error, otherError, after, otherAfter, failed, failedOther, alike⟩
  · rw [Reads.bind_of_ok ran, Reads.bind_of_ok ranOther]
    exact rest answer other same after
  · exact Or.inr ⟨error, otherError, after, otherAfter, bind_of_error failed,
      bind_of_error failedOther, alike⟩

/-- Working on the answers of both takes them no further. -/
theorem bind_pure {further : γ → δ → Prop} (start : InStep related first second) (work : α → γ)
    (otherWork : β → δ)
    (same : ∀ answer other, related answer other → further (work answer) (otherWork other)) :
    InStep further (first >>= fun answer => Pure.pure (work answer))
      (second >>= fun other => Pure.pure (otherWork other)) :=
  start.bind fun answer other relates => pure (same answer other relates)

/-- A context changes no cause. -/
theorem during_left (start : InStep related first second) (context : Context) :
    InStep related (during context first) second := by
  intro cursor
  rcases start cursor with ⟨answer, other, after, ran, ranOther, same⟩ |
    ⟨error, otherError, after, otherAfter, failed, failedOther, alike⟩
  · refine Or.inl ⟨answer, other, after, ?_, ranOther, same⟩
    rw [during, ran]
  · refine Or.inr ⟨error.within context, otherError, after, otherAfter, ?_, failedOther, alike⟩
    rw [during, failed]

theorem during_right (start : InStep related first second) (context : Context) :
    InStep related first (during context second) := by
  intro cursor
  rcases start cursor with ⟨answer, other, after, ran, ranOther, same⟩ |
    ⟨error, otherError, after, otherAfter, failed, failedOther, alike⟩
  · refine Or.inl ⟨answer, other, after, ran, ?_, same⟩
    rw [during, ranOther]
  · refine Or.inr ⟨error, otherError.within context, after, otherAfter, failed, ?_, alike⟩
    rw [during, failedOther]

end InStep

end Read

end Classpath
