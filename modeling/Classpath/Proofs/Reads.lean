import Classpath.Cursor
import Classpath.Proofs.BigEndian
import Mathlib.Data.List.Forall2

/-!
What a read takes for each of its answers. A read is told by the relation between its answers and
the runs of bytes that spell them: it gives an answer exactly when a spelling of it comes next, and
leaves the cursor behind that spelling. The relation of a sequence is put together from the
relations of its parts, so that what is accepted and what is answered are found in one go.
-/

set_option autoImplicit false

namespace Classpath

/-- An answer is given exactly when bytes that spell it come next, and exactly those are taken. -/
def Reads {α : Type} (read : Read α) (spells : α → Bytes → Prop) : Prop :=
  ∀ cursor value after, read cursor = .ok value after ↔
    ∃ taken, spells value taken ∧ cursor.rest = taken ++ after.rest ∧
      after.position = cursor.position + taken.length

namespace Reads

variable {α β : Type} {read : Read α} {spells : α → Bytes → Prop}

theorem congr {others : α → Bytes → Prop} (reads : Reads read spells)
    (same : ∀ value taken, spells value taken ↔ others value taken) : Reads read others := by
  intro cursor value after
  rw [reads cursor value after]
  simp only [same]

/-- A read is told apart into what it must answer and what it can answer. -/
theorem intro (eval : ∀ value taken, spells value taken → ∀ position rest,
      read ⟨position, taken ++ rest⟩ = .ok value ⟨position + taken.length, rest⟩)
    (spelled : ∀ cursor value after, read cursor = .ok value after →
      ∃ taken, spells value taken ∧ cursor.rest = taken ++ after.rest ∧
        after.position = cursor.position + taken.length) : Reads read spells := by
  intro cursor value after
  constructor
  · exact spelled cursor value after
  · rintro ⟨taken, spelling, rest, position⟩
    have ran := eval value taken spelling cursor.position after.rest
    rwa [← rest, ← position] at ran

/-- Bytes that spell an answer are read, whatever follows them. -/
theorem eval (reads : Reads read spells) {value : α} {taken : Bytes}
    (spelled : spells value taken) (position : Nat) (rest : Bytes) :
    read ⟨position, taken ++ rest⟩ = .ok value ⟨position + taken.length, rest⟩ :=
  (reads _ _ _).mpr ⟨taken, spelled, rfl, rfl⟩

protected theorem pure (value : α) :
    Reads (pure value) (fun answer taken => answer = value ∧ taken = []) := by
  intro cursor answer after
  constructor
  · intro ran
    cases ran
    exact ⟨[], ⟨rfl, rfl⟩, rfl, rfl⟩
  · rintro ⟨_, ⟨rfl, rfl⟩, rest, position⟩
    cases cursor
    cases after
    simp only [List.nil_append, List.length_nil, Nat.add_zero] at rest position
    rw [rest, position]
    rfl

theorem throw (error : Error) : Reads (throw error : Read α) (fun _ _ => False) := by
  intro cursor answer after
  constructor
  · intro ran
    cases ran
  · rintro ⟨_, impossible, _⟩
    cases impossible

/-- Nothing is read behind a fault. -/
theorem throw_bind (error : Error) (next : β → Read α) :
    Reads ((MonadExcept.throw error : Read β) >>= next) (fun _ _ => False) := by
  intro cursor answer after
  constructor
  · intro ran
    cases ran
  · rintro ⟨_, impossible, _⟩
    cases impossible

theorem bind_eq_ok (first : Read α) (next : α → Read β) (cursor after : Cursor) (value : β) :
    (first >>= next) cursor = .ok value after ↔
      ∃ answer between, first cursor = .ok answer between ∧
        next answer between = .ok value after := by
  change EStateM.bind first next cursor = _ ↔ _
  unfold EStateM.bind
  cases first cursor with
  | ok answer between =>
      simp only [EStateM.Result.ok.injEq]
      constructor
      · intro ran
        exact ⟨answer, between, ⟨rfl, rfl⟩, ran⟩
      · rintro ⟨_, _, ⟨rfl, rfl⟩, ran⟩
        exact ran
  | error reason between =>
      constructor
      · intro ran
        cases ran
      · rintro ⟨_, _, impossible, _⟩
        cases impossible

/-- A sequence that has run has run its first part on what that takes. -/
theorem split {next : α → Read β} {cursor after : Cursor} {value : β} (reads : Reads read spells)
    (ran : (read >>= next) cursor = .ok value after) :
    ∃ answer taken between, spells answer taken ∧ cursor.rest = taken ++ between.rest ∧
      next answer between = .ok value after := by
  obtain ⟨answer, between, ranFirst, ranNext⟩ := (bind_eq_ok _ _ _ _ _).mp ran
  obtain ⟨taken, spelled, rest, _⟩ := (reads _ _ _).mp ranFirst
  exact ⟨answer, taken, between, spelled, rest, ranNext⟩

theorem bind_of_ok {first : Read α} {next : α → Read β} {cursor between : Cursor} {answer : α}
    (ran : first cursor = .ok answer between) : (first >>= next) cursor = next answer between := by
  change EStateM.bind first next cursor = _
  rw [EStateM.bind, ran]

/-- What a sequence takes is what its parts take, one behind the other. -/
theorem bind {next : α → Read β} {nextSpells : α → β → Bytes → Prop} (first : Reads read spells)
    (second : ∀ answer, Reads (next answer) (nextSpells answer)) :
    Reads (read >>= next) (fun value taken => ∃ answer front back, spells answer front ∧
      nextSpells answer value back ∧ taken = front ++ back) := by
  intro cursor value after
  rw [bind_eq_ok]
  constructor
  · rintro ⟨answer, between, ranFirst, ranSecond⟩
    obtain ⟨front, frontSpelled, frontRest, frontPosition⟩ := (first _ _ _).mp ranFirst
    obtain ⟨back, backSpelled, backRest, backPosition⟩ := (second _ _ _ _).mp ranSecond
    refine ⟨front ++ back, ⟨answer, front, back, frontSpelled, backSpelled, rfl⟩, ?_, ?_⟩
    · rw [frontRest, backRest, List.append_assoc]
    · rw [backPosition, frontPosition, List.length_append, Nat.add_assoc]
  · rintro ⟨_, ⟨answer, front, back, frontSpelled, backSpelled, rfl⟩, rest, position⟩
    refine ⟨answer, ⟨cursor.position + front.length, back ++ after.rest⟩,
      (first _ _ _).mpr ⟨front, frontSpelled, ?_, rfl⟩,
      (second _ _ _ _).mpr ⟨back, backSpelled, rfl, ?_⟩⟩
    · rw [rest, List.append_assoc]
    · rw [position, List.length_append, Nat.add_assoc]

/-- Where several spellings may give one answer, what comes next may depend on the spelling. -/
theorem bind_spelling {ρ : Type} {meaning : ρ → α} {encode : ρ → Bytes} {next : α → Read β}
    {nextSpells : ρ → β → Bytes → Prop}
    (first : Reads read (fun answer taken => ∃ raw, meaning raw = answer ∧ taken = encode raw))
    (second : ∀ raw, Reads (next (meaning raw)) (nextSpells raw)) :
    Reads (read >>= next) (fun value taken => ∃ raw back, nextSpells raw value back ∧
      taken = encode raw ++ back) := by
  intro cursor value after
  rw [bind_eq_ok]
  constructor
  · rintro ⟨_, between, ranFirst, ranSecond⟩
    obtain ⟨_, ⟨raw, rfl, rfl⟩, frontRest, frontPosition⟩ := (first _ _ _).mp ranFirst
    obtain ⟨back, backSpelled, backRest, backPosition⟩ := (second _ _ _ _).mp ranSecond
    refine ⟨encode raw ++ back, ⟨raw, back, backSpelled, rfl⟩, ?_, ?_⟩
    · rw [frontRest, backRest, List.append_assoc]
    · rw [backPosition, frontPosition, List.length_append, Nat.add_assoc]
  · rintro ⟨_, ⟨raw, back, backSpelled, rfl⟩, rest, position⟩
    refine ⟨meaning raw, ⟨cursor.position + (encode raw).length, back ++ after.rest⟩,
      (first _ _ _).mpr ⟨encode raw, ⟨raw, rfl, rfl⟩, ?_, rfl⟩,
      (second _ _ _ _).mpr ⟨back, backSpelled, rfl, ?_⟩⟩
    · rw [rest, List.append_assoc]
    · rw [position, List.length_append, Nat.add_assoc]

/-- An answer that is worked out from another one takes what that one takes. -/
theorem bind_pure (reads : Reads read spells) (work : α → β) :
    Reads (read >>= fun answer => Pure.pure (work answer))
      (fun value taken => ∃ answer, spells answer taken ∧ value = work answer) := by
  refine (reads.bind fun answer => Reads.pure (work answer)).congr fun value taken => ?_
  constructor
  · rintro ⟨answer, front, _, spelled, ⟨rfl, rfl⟩, rfl⟩
    exact ⟨answer, by rwa [List.append_nil], rfl⟩
  · rintro ⟨answer, spelled, rfl⟩
    exact ⟨answer, taken, [], spelled, ⟨rfl, rfl⟩, (List.append_nil taken).symm⟩

theorem ofExcept (outcome : Except Error α) :
    Reads (ofExcept outcome) (fun value taken => outcome = .ok value ∧ taken = []) := by
  cases outcome with
  | ok answer =>
      refine (Reads.pure answer).congr fun value taken => ?_
      simp only [Except.ok.injEq, eq_comm]
  | error reason =>
      refine (Reads.throw reason).congr fun value taken => ?_
      simp only [reduceCtorEq, false_and]

theorem during (context : Context) (reads : Reads read spells) :
    Reads (during context read) spells := by
  intro cursor value after
  rw [← reads cursor value after]
  unfold Classpath.during
  cases read cursor with
  | ok answer between => rfl
  | error reason between => simp only [reduceCtorEq]

/-- From the start of a run of bytes, what is behind the spelling does not matter. -/
theorem run_eq_ok (reads : Reads read spells) (bytes : Bytes) (value : α) :
    Read.run read bytes = .ok value ↔ ∃ taken tail, spells value taken ∧ bytes = taken ++ tail := by
  unfold Read.run
  constructor
  · intro ran
    split at ran
    · rename_i answer after answered
      cases ran
      obtain ⟨taken, spelled, rest, _⟩ := (reads _ _ _).mp answered
      exact ⟨taken, after.rest, spelled, rest⟩
    · cases ran
  · rintro ⟨taken, tail, spelled, rfl⟩
    rw [Cursor.start, reads.eval spelled]

/-! The reads of a cursor. -/

theorem word (width : Nat) :
    Reads (Read.word width) (fun answer taken => answer = taken ∧ taken.length = width) := by
  intro cursor answer after
  unfold Read.word
  dsimp only
  constructor
  · intro ran
    split at ran
    · rename_i sized
      cases ran
      exact ⟨_, ⟨rfl, sized⟩, (List.take_append_drop width cursor.rest).symm, rfl⟩
    · cases ran
  · rintro ⟨_, ⟨rfl, rfl⟩, rest, position⟩
    rw [rest, List.take_left, List.drop_left, if_pos rfl, ← position]

theorem slice (length : Nat) :
    Reads (Read.slice length) (fun answer taken => answer = taken ∧ taken.length = length) := by
  intro cursor answer after
  unfold Read.slice
  dsimp only
  constructor
  · intro ran
    split at ran
    · rename_i sized
      cases ran
      refine ⟨_, ⟨rfl, sized⟩, (List.take_append_drop length cursor.rest).symm, ?_⟩
      rw [sized]
    · cases ran
  · rintro ⟨_, ⟨rfl, rfl⟩, rest, position⟩
    rw [rest, List.take_left, List.drop_left, if_pos rfl, ← position]

theorem discard (length : Nat) :
    Reads (Read.discard length) (fun _ taken => taken.length = length) := by
  refine ((slice length).bind_pure fun _ => ()).congr fun value taken => ?_
  constructor
  · rintro ⟨_, ⟨_, sized⟩, _⟩
    exact sized
  · intro sized
    exact ⟨taken, ⟨rfl, sized⟩, rfl⟩

/-- A number of fixed width is spelled by the bytes of that width that stand for it. -/
theorem number {width : Nat} (ofNat : Nat → α) (toNat : α → Nat)
    (small : ∀ value, toNat value < wordCount width)
    (ofNat_toNat : ∀ value, ofNat (toNat value) = value)
    (toNat_ofNat : ∀ n, n < wordCount width → toNat (ofNat n) = n) :
    Reads (do return ofNat (bigEndian (← Read.word width)))
      (fun value taken => taken = bigEndianBytes width (toNat value)) := by
  refine ((word width).bind_pure fun bytes => ofNat (bigEndian bytes)).congr fun value taken => ?_
  constructor
  · rintro ⟨_, ⟨rfl, sized⟩, rfl⟩
    rw [toNat_ofNat _ (bigEndian_lt width _ sized), bigEndianBytes_bigEndian width _ sized]
  · rintro rfl
    refine ⟨_, ⟨rfl, length_bigEndianBytes _ _⟩, ?_⟩
    rw [bigEndian_bigEndianBytes width _ (small value), ofNat_toNat]

theorem u8 : Reads Read.u8 (fun value taken => taken = [value]) := by
  have bytes : Reads Read.u8 (fun value taken => taken = bigEndianBytes 1 value.toNat) :=
    number UInt8.ofNat UInt8.toNat UInt8.toNat_lt (fun _ => UInt8.ofNat_toNat)
      fun _ small => UInt8.toNat_ofNat_of_lt' small
  refine bytes.congr fun value taken => ?_
  rw [bigEndianBytes, bigEndianBytes, List.nil_append, UInt8.ofNat_toNat]

theorem u16 : Reads Read.u16 (fun value taken => taken = bigEndianBytes 2 value.toNat) :=
  number UInt16.ofNat UInt16.toNat UInt16.toNat_lt (fun _ => UInt16.ofNat_toNat)
    fun _ small => UInt16.toNat_ofNat_of_lt' small

theorem u32 : Reads Read.u32 (fun value taken => taken = bigEndianBytes 4 value.toNat) :=
  number UInt32.ofNat UInt32.toNat UInt32.toNat_lt (fun _ => UInt32.ofNat_toNat)
    fun _ small => UInt32.toNat_ofNat_of_lt' small

theorem u64 : Reads Read.u64 (fun value taken => taken = bigEndianBytes 8 value.toNat) :=
  number UInt64.ofNat UInt64.toNat UInt64.toNat_lt (fun _ => UInt64.ofNat_toNat)
    fun _ small => UInt64.toNat_ofNat_of_lt' small

theorem i32 : Reads Read.i32 (fun value taken => taken = bigEndianBytes 4 value.toUInt32.toNat) := by
  refine (u32.bind_pure UInt32.toInt32).congr fun value taken => ?_
  constructor
  · rintro ⟨bits, rfl, rfl⟩
    rfl
  · rintro rfl
    exact ⟨value.toUInt32, rfl, rfl⟩

theorem i64 : Reads Read.i64 (fun value taken => taken = bigEndianBytes 8 value.toUInt64.toNat) := by
  refine (u64.bind_pure UInt64.toInt64).congr fun value taken => ?_
  constructor
  · rintro ⟨bits, rfl, rfl⟩
    rfl
  · rintro rfl
    exact ⟨value.toUInt64, rfl, rfl⟩

/-- Two words that make one constant. -/
theorem pair (make : UInt16 → UInt16 → α) :
    Reads (do return make (← Read.u16) (← Read.u16)) (fun value taken => ∃ first second,
      taken = bigEndianBytes 2 first.toNat ++ bigEndianBytes 2 second.toNat ∧
        value = make first second) := by
  refine (u16.bind fun first => u16.bind_pure (make first)).congr fun value taken => ?_
  constructor
  · rintro ⟨first, _, _, rfl, ⟨second, rfl, rfl⟩, rfl⟩
    exact ⟨first, second, rfl, rfl⟩
  · rintro ⟨first, second, rfl, rfl⟩
    exact ⟨first, _, _, rfl, ⟨second, rfl, rfl⟩, rfl⟩

/-- Rows are read one behind the other, each for what it means. -/
theorem timesFrom {ρ : Type} {encode : ρ → Bytes} {means : ρ → α → Prop}
    (item : Reads read (fun value taken => ∃ row, means row value ∧ taken = encode row))
    (count : Nat) (done : List α) :
    Reads (Read.timesFrom read count done) (fun values taken => ∃ rows answers,
      rows.length = count ∧ List.Forall₂ means rows answers ∧
        values = done.reverse ++ answers ∧ taken = rows.flatMap encode) := by
  induction count generalizing done with
  | zero =>
      refine (Reads.pure done.reverse).congr fun values taken => ?_
      constructor
      · rintro ⟨rfl, rfl⟩
        exact ⟨[], [], rfl, .nil, (List.append_nil _).symm, rfl⟩
      · rintro ⟨rows, answers, none, related, rfl, rfl⟩
        rw [List.eq_nil_of_length_eq_zero none] at related ⊢
        cases related
        exact ⟨List.append_nil _, rfl⟩
  | succ count ih =>
      refine (item.bind fun value => ih (value :: done)).congr fun values taken => ?_
      constructor
      · rintro ⟨value, _, _, ⟨row, meant, rfl⟩, ⟨rows, answers, counted, related, rfl, rfl⟩, rfl⟩
        refine ⟨row :: rows, value :: answers, congrArg (· + 1) counted, .cons meant related, ?_,
          rfl⟩
        rw [List.reverse_cons, List.append_assoc, List.singleton_append]
      · rintro ⟨rows, answers, counted, related, rfl, rfl⟩
        cases related with
        | nil => cases counted
        | @cons row value rows answers meant related =>
            refine ⟨value, encode row, rows.flatMap encode, ⟨row, meant, rfl⟩,
              ⟨rows, answers, Nat.succ.inj counted, related, ?_, rfl⟩, rfl⟩
            rw [List.reverse_cons, List.append_assoc, List.singleton_append]

theorem times {ρ : Type} {encode : ρ → Bytes} {means : ρ → α → Prop}
    (item : Reads read (fun value taken => ∃ row, means row value ∧ taken = encode row))
    (count : Nat) :
    Reads (Read.times count read) (fun values taken => ∃ rows, rows.length = count ∧
      List.Forall₂ means rows values ∧ taken = rows.flatMap encode) := by
  refine (timesFrom item count []).congr fun values taken => ?_
  constructor
  · rintro ⟨rows, _, counted, related, rfl, spelled⟩
    exact ⟨rows, counted, related, spelled⟩
  · rintro ⟨rows, counted, related, spelled⟩
    exact ⟨rows, values, counted, related, rfl, spelled⟩

end Reads

namespace Read

theorem discard_append (length : Nat) (taken : Bytes) (sized : taken.length = length)
    (position : Nat) (rest : Bytes) :
    discard length ⟨position, taken ++ rest⟩ = .ok () ⟨position + length, rest⟩ := by
  rw [← sized]
  exact (Reads.discard _).eval rfl position rest

theorem u16_append (value : UInt16) (position : Nat) (rest : Bytes) :
    u16 ⟨position, bigEndianBytes 2 value.toNat ++ rest⟩ = .ok value ⟨position + 2, rest⟩ :=
  Reads.u16.eval rfl position rest

end Read

end Classpath
