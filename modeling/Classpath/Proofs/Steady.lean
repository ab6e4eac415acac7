import Classpath.Proofs.InStep

/-!
Reads of bytes that are cut off somewhere. A read is steady if more bytes behind those it is given
change nothing but what failed for want of bytes: an answer stays that answer, and any other fault
stays that fault.
-/

set_option autoImplicit false

namespace Classpath.Read

/-- With more bytes at `back`, an answer stays as it is and what was left over is left over, and so
does a fault, unless it is that the bytes ended. -/
structure Steady {α : Type} (read : Read α) : Prop where
  answered : ∀ (position : Nat) (front back : Bytes) (value : α) (after : Cursor),
    read ⟨position, front⟩ = .ok value after →
      read ⟨position, front ++ back⟩ = .ok value ⟨after.position, after.rest ++ back⟩
  failed : ∀ (position : Nat) (front back : Bytes) (error : Error) (after : Cursor),
    read ⟨position, front⟩ = .error error after →
      error.cause.EndOfBytes ∨ ∃ later, read ⟨position, front ++ back⟩ = .error error later

namespace Steady

variable {α β : Type} {read : Read α}

theorem pure (value : α) : Steady (Pure.pure value : Read α) := by
  constructor
  · intro position front back answer after ran
    cases ran
    rfl
  · intro position front back error after ran
    cases ran

theorem throw (error : Error) : Steady (throw error : Read α) := by
  constructor
  · intro position front back answer after ran
    cases ran
  · intro position front back fault after ran
    cases ran
    exact Or.inr ⟨_, rfl⟩

theorem ofExcept (outcome : Except Error α) : Steady (ofExcept outcome : Read α) := by
  cases outcome with
  | ok value => exact pure value
  | error error => exact throw error

/-- A sequence that fails does so in its first part or in its second. -/
theorem bind_eq_error (first : Read α) (next : α → Read β) (cursor after : Cursor)
    (error : Error) :
    (first >>= next) cursor = .error error after ↔
      first cursor = .error error after ∨
        ∃ answer between, first cursor = .ok answer between ∧
          next answer between = .error error after := by
  change EStateM.bind first next cursor = _ ↔ _
  unfold EStateM.bind
  cases first cursor with
  | ok answer between => simp
  | error reason between => simp

theorem bind {next : α → Read β} (first : Steady read) (second : ∀ answer, Steady (next answer)) :
    Steady (read >>= next) := by
  constructor
  · intro position front back value after ran
    obtain ⟨answer, between, ranFirst, ranNext⟩ := (Reads.bind_eq_ok _ _ _ _ _).mp ran
    rw [Reads.bind_of_ok (first.answered position front back answer between ranFirst)]
    exact (second answer).answered _ _ back value after ranNext
  · intro position front back error after ran
    rcases (bind_eq_error _ _ _ _ _).mp ran with stopped | ⟨answer, between, ranFirst, ranNext⟩
    · rcases first.failed position front back error after stopped with ended | ⟨later, same⟩
      · exact Or.inl ended
      · exact Or.inr ⟨later, bind_of_error same⟩
    · rw [Reads.bind_of_ok (first.answered position front back answer between ranFirst)]
      exact (second answer).failed _ _ back error after ranNext

theorem bind_pure (steady : Steady read) (work : α → β) :
    Steady (read >>= fun answer => Pure.pure (work answer)) :=
  steady.bind fun answer => pure (work answer)

theorem during (context : Context) (steady : Steady read) : Steady (during context read) := by
  constructor
  · intro position front back value after ran
    unfold Classpath.during at ran ⊢
    cases plain : read ⟨position, front⟩ with
    | ok answer between =>
        rw [plain] at ran
        cases ran
        rw [steady.answered position front back _ _ plain]
    | error reason between =>
        rw [plain] at ran
        cases ran
  · intro position front back error after ran
    unfold Classpath.during at ran ⊢
    cases plain : read ⟨position, front⟩ with
    | ok answer between =>
        rw [plain] at ran
        cases ran
    | error reason between =>
        rw [plain] at ran
        cases ran
        rcases steady.failed position front back _ _ plain with ended | ⟨later, same⟩
        · exact Or.inl ended
        · exact Or.inr ⟨later, by rw [same]⟩

/-- An answer is spelled by what is taken for it, whatever stands behind. -/
theorem answered_of_reads {spells : α → Bytes → Prop} (reads : Reads read spells) (position : Nat)
    (front back : Bytes) (value : α) (after : Cursor)
    (ran : read ⟨position, front⟩ = .ok value after) :
    read ⟨position, front ++ back⟩ = .ok value ⟨after.position, after.rest ++ back⟩ := by
  obtain ⟨taken, spelled, whole, moved⟩ := (reads ⟨position, front⟩ value after).mp ran
  simp only at whole moved
  rw [whole, List.append_assoc, reads.eval spelled, ← moved]

theorem word (width : Nat) : Steady (Read.word width) := by
  refine ⟨answered_of_reads (Reads.word width), ?_⟩
  intro position front back error after ran
  unfold Read.word at ran
  dsimp only at ran
  split at ran
  · cases ran
  · cases ran
    exact Or.inl .exhausted

theorem slice (length : Nat) : Steady (Read.slice length) := by
  refine ⟨answered_of_reads (Reads.slice length), ?_⟩
  intro position front back error after ran
  unfold Read.slice at ran
  dsimp only at ran
  split at ran
  · cases ran
  · cases ran
    exact Or.inl (.truncated _ _)

theorem discard (length : Nat) : Steady (Read.discard length) :=
  (slice length).bind_pure fun _ => ()

theorem u8 : Steady Read.u8 := (word 1).bind_pure _

theorem u16 : Steady Read.u16 := (word 2).bind_pure _

theorem u32 : Steady Read.u32 := (word 4).bind_pure _

theorem u64 : Steady Read.u64 := (word 8).bind_pure _

theorem i32 : Steady Read.i32 := u32.bind_pure _

theorem i64 : Steady Read.i64 := u64.bind_pure _

theorem timesFrom (item : Steady read) (count : Nat) (done : List α) :
    Steady (Read.timesFrom read count done) := by
  induction count generalizing done with
  | zero => exact pure done.reverse
  | succ count ih => exact item.bind fun value => ih (value :: done)

theorem times (item : Steady read) (count : Nat) : Steady (Read.times count read) :=
  item.timesFrom count []

/-- A run on the first of some bytes comes to what it comes to on all of them, or the bytes end. -/
theorem run_take (steady : Steady read) (bytes : Bytes) (count : Nat) :
    read.run (bytes.take count) = read.run bytes ∨
      ∃ error, read.run (bytes.take count) = .error error ∧ error.cause.EndOfBytes := by
  have whole : Cursor.start bytes = ⟨0, bytes.take count ++ bytes.drop count⟩ := by
    rw [List.take_append_drop]
    rfl
  unfold Read.run
  rw [whole]
  cases ran : read (Cursor.start (bytes.take count)) with
  | ok value after =>
      rw [steady.answered 0 _ (bytes.drop count) value after ran]
      exact Or.inl rfl
  | error error after =>
      rcases steady.failed 0 _ (bytes.drop count) error after ran with ended | ⟨later, same⟩
      · exact Or.inr ⟨error, rfl, ended⟩
      · rw [same]
        exact Or.inl rfl

/-- Without the last of the bytes that spell an answer, or any more, the bytes end. -/
theorem cut {spells : α → Bytes → Prop} (steady : Steady read) (reads : Reads read spells)
    (value : α) {taken : Bytes} (spelled : spells value taken) {kept : Nat}
    (short : kept < taken.length) (position : Nat) :
    ∃ error after, read ⟨position, taken.take kept⟩ = .error error after ∧
      error.cause.EndOfBytes := by
  have whole : read ⟨position, taken.take kept ++ taken.drop kept⟩ =
      .ok value ⟨position + taken.length, []⟩ := by
    rw [List.take_append_drop]
    have ran := reads.eval spelled position []
    rwa [List.append_nil] at ran
  cases ran : read ⟨position, taken.take kept⟩ with
  | ok other after =>
      -- The same answer would be had of the whole spelling, with the missing bytes left over.
      have longer := steady.answered position _ (taken.drop kept) other after ran
      rw [whole] at longer
      simp only [EStateM.Result.ok.injEq, Cursor.mk.injEq] at longer
      have missing := congrArg List.length longer.2.2
      rw [List.length_nil, List.length_append, List.length_drop] at missing
      omega
  | error error after =>
      rcases steady.failed position _ (taken.drop kept) error after ran with ended | ⟨later, same⟩
      · exact ⟨error, after, rfl, ended⟩
      · rw [whole] at same
        cases same

end Steady

end Classpath.Read
