import Classpath.Proofs.Steady
import Mathlib.Data.Nat.Digits.Defs

/-!
The laws of a cursor. Whatever is asked of it, and however often it fails, a cursor stays at a place
of the bytes it was started on. A move answers exactly where there are as many bytes as it wants,
and leaves the cursor behind them. Where there are fewer, a number uses up what is left, and a run
of bytes takes nothing. A slice that is reckoned in words of 64 bits comes to the same.

Main statements: `Cursor.moves_keep_place` and `Cursor.slice_onWords`.
-/

set_option autoImplicit false

namespace Classpath

/-- The number that has bytes for its digits, the most significant of them first. -/
def positional (bytes : Bytes) : Nat :=
  Nat.ofDigits 256 (bytes.reverse.map UInt8.toNat)

/-- What one of `count` numbers stands for where the upper half of them are those below zero. -/
def twosComplement (count n : Nat) : Int :=
  if 2 * n < count then n else n - count

theorem littleEndian_eq_ofDigits (bytes : Bytes) :
    littleEndian bytes = Nat.ofDigits 256 (bytes.map UInt8.toNat) := by
  induction bytes with
  | nil => rfl
  | cons byte bytes ih => rw [littleEndian_cons, List.map_cons, Nat.ofDigits_cons, ih]

theorem positional_bigEndianBytes (width n : Nat) (small : n < wordCount width) :
    positional (bigEndianBytes width n) = n := by
  rw [positional, ← littleEndian_eq_ofDigits, ← bigEndian_eq_littleEndian_reverse,
    bigEndian_bigEndianBytes width n small]

theorem toInt_eq_twosComplement_word (value : Int32) :
    value.toInt = twosComplement UInt32.size value.toUInt32.toNat :=
  BitVec.toInt_eq_toNat_cond value.toBitVec

theorem toInt_eq_twosComplement_long (value : Int64) :
    value.toInt = twosComplement UInt64.size value.toUInt64.toNat :=
  BitVec.toInt_eq_toNat_cond value.toBitVec

/-- A number that is read is the one whose digits were taken. -/
theorem Reads.exists_positional {α : Type} {read : Read α} {width : Nat} {toNat : α → Nat}
    (reads : Reads read (fun value taken => taken = bigEndianBytes width (toNat value)))
    (small : ∀ value, toNat value < wordCount width) {cursor after : Cursor} {value : α}
    (ran : read cursor = .ok value after) :
    ∃ taken, taken.length = width ∧ cursor.rest = taken ++ after.rest ∧
      toNat value = positional taken := by
  obtain ⟨taken, rfl, rest, _⟩ := (reads cursor value after).mp ran
  exact ⟨_, length_bigEndianBytes width _, rest,
    (positional_bigEndianBytes width _ (small value)).symm⟩

namespace Read

variable {α β : Type} {read : Read α} {reason : Cursor → Cause} {stop : Cursor → Cursor}

theorem slice_eq (length : Nat) (cursor : Cursor) : Read.slice length cursor =
    if cursor.remaining < length then
      .error (.ofCause (.bytesTruncated length cursor.remaining)) cursor
    else .ok (cursor.rest.take length) ⟨cursor.position + length, cursor.rest.drop length⟩ := by
  unfold Read.slice
  dsimp only
  rw [List.length_take]
  by_cases short : cursor.remaining < length
  · rw [if_pos short, if_neg (by rw [Cursor.remaining] at short; omega)]
  · rw [if_neg short, if_pos (by rw [Cursor.remaining] at short; omega)]

theorem discard_eq (length : Nat) (cursor : Cursor) : Read.discard length cursor =
    if cursor.remaining < length then
      .error (.ofCause (.bytesTruncated length cursor.remaining)) cursor
    else .ok () ⟨cursor.position + length, cursor.rest.drop length⟩ := by
  change EStateM.bind (Read.slice length) _ cursor = _
  rw [EStateM.bind, slice_eq]
  by_cases short : cursor.remaining < length
  · rw [if_pos short, if_pos short]
  · rw [if_neg short, if_neg short]
    rfl

/-- Where a read fails, it does so for the one reason and leaves the one cursor. -/
def Fails (reason : Cursor → Cause) (stop : Cursor → Cursor) (read : Read α) : Prop :=
  ∀ cursor error after, read cursor = .error error after →
    error = .ofCause (reason cursor) ∧ after = stop cursor

namespace Fails

theorem word (width : Nat) : Fails (fun _ => .bytesExhausted)
    (fun cursor => ⟨cursor.position + cursor.remaining, []⟩) (Read.word width) := by
  intro cursor error after ran
  unfold Read.word at ran
  dsimp only at ran
  split at ran
  · cases ran
  · rename_i missing
    have short : cursor.rest.length ≤ width := by
      rw [List.length_take] at missing
      omega
    rw [List.take_of_length_le short, List.drop_of_length_le short] at ran
    cases ran
    exact ⟨rfl, rfl⟩

theorem slice (length : Nat) :
    Fails (fun cursor => .bytesTruncated length cursor.remaining) id (Read.slice length) := by
  intro cursor error after ran
  rw [slice_eq] at ran
  split at ran
  · cases ran
    exact ⟨rfl, rfl⟩
  · cases ran

/-- Working on an answer cannot fail. -/
theorem bind_pure (fails : Fails reason stop read) (work : α → β) :
    Fails reason stop (read >>= fun answer => Pure.pure (work answer)) := by
  intro cursor error after ran
  rcases (Steady.bind_eq_error _ _ _ _ _).mp ran with failed | ⟨_, _, _, impossible⟩
  · exact fails cursor error after failed
  · cases impossible

end Fails

end Read

namespace Cursor

/-- What may be asked of a cursor. -/
inductive Move where
  | u8
  | u16
  | u32
  | i32
  | i64
  /-- The bits of a binary32 number. -/
  | binary32
  /-- The bits of a binary64 number. -/
  | binary64
  | slice (length : Nat)
  /-- A slice that is copied out. -/
  | copy (length : Nat)
  | discard (length : Nat)
  deriving DecidableEq, Repr

namespace Move

/-- What a move answers with. -/
def Value : Move → Type
  | u8 => UInt8
  | u16 => UInt16
  | u32 | binary32 => UInt32
  | i32 => Int32
  | i64 => Int64
  | binary64 => UInt64
  | slice _ | copy _ => Bytes
  | discard _ => Unit

def perform : (move : Move) → Read move.Value
  | u8 => Read.u8
  | u16 => Read.u16
  | u32 | binary32 => Read.u32
  | i32 => Read.i32
  | i64 => Read.i64
  | binary64 => Read.u64
  | slice length | copy length => Read.slice length
  | discard length => Read.discard length

/-- How many bytes a move wants. -/
def width : Move → Nat
  | u8 => 1
  | u16 => 2
  | u32 | i32 | binary32 => 4
  | i64 | binary64 => 8
  | slice length | copy length | discard length => length

/-- The move is for a number, and not for a run of bytes. -/
def isNumber : Move → Bool
  | slice _ | copy _ | discard _ => false
  | _ => true

/-- What a move has to answer with for the bytes it takes. -/
def Means : (move : Move) → move.Value → Bytes → Prop
  | u8, (value : UInt8), taken => value.toNat = positional taken
  | u16, (value : UInt16), taken => value.toNat = positional taken
  | u32, (value : UInt32), taken | binary32, (value : UInt32), taken =>
      value.toNat = positional taken
  | i32, (value : Int32), taken => value.toInt = twosComplement UInt32.size (positional taken)
  | i64, (value : Int64), taken => value.toInt = twosComplement UInt64.size (positional taken)
  | binary64, (value : UInt64), taken => value.toNat = positional taken
  | slice _, (value : Bytes), taken | copy _, (value : Bytes), taken => value = taken
  | discard _, _, _ => True

/-- Why a move fails: the bytes end. -/
def reason (move : Move) (cursor : Cursor) : Cause :=
  if move.isNumber then .bytesExhausted else .bytesTruncated move.width cursor.remaining

/-- The cursor that a move leaves when it fails. -/
def stop (move : Move) (cursor : Cursor) : Cursor :=
  if move.isNumber then ⟨cursor.position + cursor.remaining, []⟩ else cursor

theorem takes (move : Move) : Read.Takes move.width move.perform := by
  cases move with
  | u8 => exact .u8
  | u16 => exact .u16
  | u32 | binary32 => exact .u32
  | i32 => exact .i32
  | i64 => exact .i64
  | binary64 => exact .u64
  | slice length | copy length => exact .slice length
  | discard length => exact .discard length

theorem fails (move : Move) : Read.Fails move.reason move.stop move.perform := by
  cases move with
  | u8 => exact (Read.Fails.word 1).bind_pure _
  | u16 => exact (Read.Fails.word 2).bind_pure _
  | u32 | binary32 => exact (Read.Fails.word 4).bind_pure _
  | i32 => exact ((Read.Fails.word 4).bind_pure _).bind_pure _
  | i64 => exact ((Read.Fails.word 8).bind_pure _).bind_pure _
  | binary64 => exact (Read.Fails.word 8).bind_pure _
  | slice length | copy length => exact Read.Fails.slice length
  | discard length => exact (Read.Fails.slice length).bind_pure _

/-- An answer is what the bytes that were taken for it mean. -/
theorem exists_taken (move : Move) {cursor after : Cursor} {value : move.Value}
    (ran : move.perform cursor = .ok value after) :
    ∃ taken, taken.length = move.width ∧ cursor.rest = taken ++ after.rest ∧
      move.Means value taken := by
  cases move with
  | u8 =>
      obtain ⟨_, rfl, rest, _⟩ := (Reads.u8 _ _ _).mp ran
      exact ⟨[value], rfl, rest, Nat.ofDigits_singleton.symm⟩
  | u16 => exact Reads.u16.exists_positional UInt16.toNat_lt ran
  | u32 | binary32 => exact Reads.u32.exists_positional UInt32.toNat_lt ran
  | binary64 => exact Reads.u64.exists_positional UInt64.toNat_lt ran
  | i32 =>
      obtain ⟨taken, sized, rest, number⟩ :=
        Reads.i32.exists_positional (fun value => value.toUInt32.toNat_lt) ran
      refine ⟨taken, sized, rest, ?_⟩
      change Int32.toInt value = twosComplement UInt32.size (positional taken)
      rw [← number]
      exact toInt_eq_twosComplement_word value
  | i64 =>
      obtain ⟨taken, sized, rest, number⟩ :=
        Reads.i64.exists_positional (fun value => value.toUInt64.toNat_lt) ran
      refine ⟨taken, sized, rest, ?_⟩
      change Int64.toInt value = twosComplement UInt64.size (positional taken)
      rw [← number]
      exact toInt_eq_twosComplement_long value
  | slice length | copy length =>
      obtain ⟨taken, ⟨rfl, sized⟩, rest, _⟩ := (Reads.slice length _ _ _).mp ran
      exact ⟨_, sized, rest, rfl⟩
  | discard length =>
      obtain ⟨taken, sized, rest, _⟩ := (Reads.discard length _ _ _).mp ran
      exact ⟨taken, sized, rest, trivial⟩

/-- What a move comes to from a cursor on `bytes`. -/
structure Lawful (bytes : Bytes) (cursor : Cursor) (move : Move) : Prop where
  /-- With enough bytes ahead it takes those, and answers with what they mean. -/
  answers : move.width ≤ cursor.remaining → ∃ value,
    move.perform cursor = .ok value
      ⟨cursor.position + move.width, bytes.drop (cursor.position + move.width)⟩ ∧
    move.Means value ((bytes.drop cursor.position).take move.width)
  /-- With too few it fails; a number is then at the end, and a run of bytes where it was. -/
  fails : cursor.remaining < move.width →
    move.perform cursor = .error (.ofCause (move.reason cursor))
      (if move.isNumber then ⟨bytes.length, []⟩ else cursor)
  /-- The place behind the bytes that are taken can be worked out in words of 64 bits, if the
  number of all bytes is one. -/
  fits : move.width ≤ cursor.remaining → bytes.length < UInt64.size →
    (UInt64.ofNat cursor.position + UInt64.ofNat move.width).toNat = cursor.position + move.width

end Move

/-- The cursor that a move leaves, whether it answers or fails. -/
def behind (cursor : Cursor) (move : Move) : Cursor :=
  match move.perform cursor with
  | .ok _ after | .error _ after => after

/-- The cursor that moves leave, one after the other. -/
def behindAll (cursor : Cursor) (moves : List Move) : Cursor := moves.foldl behind cursor

/-- A cursor at a place of `bytes`. -/
structure Within (bytes : Bytes) (cursor : Cursor) : Prop where
  inside : cursor.position ≤ bytes.length
  rest : cursor.rest = bytes.drop cursor.position

namespace Within

variable {bytes : Bytes} {cursor : Cursor}

theorem start (bytes : Bytes) : Within bytes (Cursor.start bytes) :=
  ⟨Nat.zero_le _, List.drop_zero.symm⟩

theorem whole (within : Within bytes cursor) :
    cursor.position + cursor.remaining = bytes.length := by
  have inside := within.inside
  rw [remaining, within.rest, List.length_drop]
  omega

theorem lawful (within : Within bytes cursor) (move : Move) : move.Lawful bytes cursor := by
  have whole := within.whole
  constructor
  · intro enough
    obtain ⟨value, ran⟩ := move.takes.enough cursor enough
    obtain ⟨taken, sized, split, meant⟩ := move.exists_taken ran
    have front : (bytes.drop cursor.position).take move.width = taken := by
      rw [← within.rest, split, ← sized, List.take_left]
    refine ⟨value, ?_, ?_⟩
    · rw [ran, within.rest, List.drop_drop]
    · rwa [front]
  · intro short
    obtain ⟨error, after, ran, _⟩ := move.takes.short cursor short
    obtain ⟨rfl, rfl⟩ := move.fails cursor error after ran
    rw [ran, Move.stop, whole]
  · intro enough physical
    have sum : cursor.position + move.width < UInt64.size := by omega
    have place : cursor.position < UInt64.size := by omega
    have width : move.width < UInt64.size := by omega
    rw [UInt64.toNat_add, UInt64.toNat_ofNat_of_lt' place, UInt64.toNat_ofNat_of_lt' width]
    exact Nat.mod_eq_of_lt sum

/-- A move keeps the cursor within its bytes and never takes it back. -/
theorem behind (within : Within bytes cursor) (move : Move) :
    Within bytes (cursor.behind move) ∧ cursor.position ≤ (cursor.behind move).position := by
  have whole := within.whole
  by_cases enough : move.width ≤ cursor.remaining
  · obtain ⟨value, ran, _⟩ := (within.lawful move).answers enough
    have inside : cursor.position + move.width ≤ bytes.length := by omega
    rw [Cursor.behind, ran]
    exact ⟨⟨inside, rfl⟩, Nat.le_add_right _ _⟩
  · have ran := (within.lawful move).fails (by omega)
    rw [Cursor.behind, ran]
    cases move.isNumber with
    | true => exact ⟨⟨Nat.le_refl _, List.drop_length.symm⟩, within.inside⟩
    | false => exact ⟨within, Nat.le_refl _⟩

theorem behindAll (within : Within bytes cursor) (moves : List Move) :
    Within bytes (cursor.behindAll moves) ∧
      cursor.position ≤ (cursor.behindAll moves).position := by
  induction moves generalizing cursor with
  | nil => exact ⟨within, Nat.le_refl _⟩
  | cons move moves ih =>
      obtain ⟨next, moved⟩ := within.behind move
      obtain ⟨last, further⟩ := ih next
      exact ⟨last, Nat.le_trans moved further⟩

end Within

/-- Behind any moves, failed ones among them, a cursor is at a place of its bytes; no later moves
take it back, and whatever is asked of it next is lawful. -/
theorem moves_keep_place (bytes : Bytes) (moves : List Move) :
    let cursor := (start bytes).behindAll moves
    cursor.position + cursor.remaining = bytes.length ∧
      (∀ later, cursor.position ≤ ((start bytes).behindAll (moves ++ later)).position) ∧
      ∀ move : Move, move.Lawful bytes cursor := by
  intro cursor
  have within : Within bytes cursor := ((Within.start bytes).behindAll moves).1
  refine ⟨within.whole, ?_, within.lawful⟩
  intro later
  rw [behindAll, List.foldl_append]
  exact (within.behindAll later).2

/-- A number below zero behind a slice that is far too long, and then one more number than there
is. -/
theorem moves_keep_place_specimen :
    let bytes : Bytes := [0x80, 0, 0, 1, 5, 6]
    let cursor := (start bytes).behindAll [.slice 0xFFFFFFFFFFFFFFFF]
    (∃ value, Read.i32 cursor = .ok value ⟨4, [5, 6]⟩ ∧ value.toInt = -0x7FFFFFFF) ∧
      Read.u32 (cursor.behind .i32) = .error (.ofCause .bytesExhausted) ⟨6, []⟩ := by
  intro bytes cursor
  have first := (moves_keep_place bytes [.slice 0xFFFFFFFFFFFFFFFF]).2.2 .i32
  have second := (moves_keep_place bytes [.slice 0xFFFFFFFFFFFFFFFF, .i32]).2.2 .u32
  constructor
  · obtain ⟨value, ran, meant⟩ := first.answers (by decide)
    refine ⟨value, ran, meant.trans ?_⟩
    decide
  · exact second.fails (by decide)

end Cursor

/-! The same reads on words of 64 bits. A length is held against what is left before it is added to
the place, so that the sum does not wrap round. -/

/-- All the bytes, and a place in them as a word. -/
structure WordCursor where
  bytes : Bytes
  position : UInt64

namespace WordCursor

def remaining (cursor : WordCursor) : UInt64 :=
  let size := UInt64.ofNat cursor.bytes.length
  if size ≤ cursor.position then 0 else size - cursor.position

/-- The cursor behind the next `length` bytes, if there are as many. -/
def advance? (cursor : WordCursor) (length : UInt64) : Option WordCursor :=
  if cursor.remaining < length then none
  else some { cursor with position := cursor.position + length }

def slice (length : UInt64) : EStateM Error WordCursor Bytes := fun cursor =>
  match cursor.advance? length with
  | none =>
      .error (.ofCause (.bytesTruncated length.toNat cursor.remaining.toNat)) cursor
  | some after => .ok (cursor.bytes.extract cursor.position.toNat after.position.toNat) after

def discard (length : UInt64) : EStateM Error WordCursor Unit := fun cursor =>
  match cursor.advance? length with
  | none =>
      .error (.ofCause (.bytesTruncated length.toNat cursor.remaining.toNat)) cursor
  | some after => .ok () after

end WordCursor

namespace Cursor

/-- The place of a cursor on `bytes` as a word. -/
def onWords (cursor : Cursor) (bytes : Bytes) : WordCursor := ⟨bytes, UInt64.ofNat cursor.position⟩

variable {bytes : Bytes} {cursor : Cursor}

theorem remaining_onWords (within : Within bytes cursor) (physical : bytes.length < UInt64.size) :
    (cursor.onWords bytes).remaining.toNat = cursor.remaining := by
  have whole := within.whole
  have inside := within.inside
  have size : (UInt64.ofNat bytes.length).toNat = bytes.length :=
    UInt64.toNat_ofNat_of_lt' physical
  have place : (UInt64.ofNat cursor.position).toNat = cursor.position :=
    UInt64.toNat_ofNat_of_lt' (by omega)
  unfold WordCursor.remaining onWords
  dsimp only
  split
  · rename_i ended
    rw [UInt64.le_iff_toNat_le, size, place] at ended
    have none : cursor.remaining = 0 := by omega
    rw [none]
    rfl
  · rename_i ahead
    rw [UInt64.le_iff_toNat_le, size, place] at ahead
    have below : UInt64.ofNat cursor.position ≤ UInt64.ofNat bytes.length := by
      rw [UInt64.le_iff_toNat_le, size, place]
      omega
    rw [UInt64.toNat_sub_of_le _ _ below, size, place]
    omega

/-- The place behind bytes that are there is where the numbers have it. -/
theorem advance?_onWords (within : Within bytes cursor) (physical : bytes.length < UInt64.size)
    (length : UInt64) :
    (cursor.onWords bytes).advance? length =
      if cursor.remaining < length.toNat then none
      else some ⟨bytes, UInt64.ofNat (cursor.position + length.toNat)⟩ := by
  unfold WordCursor.advance?
  simp only [UInt64.lt_iff_toNat_lt, remaining_onWords within physical]
  split
  · rfl
  · rw [UInt64.ofNat_add, UInt64.ofNat_toNat]
    rfl

/-- The bytes of a slice and the place behind it are the same on words. -/
theorem slice_onWords (within : Within bytes cursor) (physical : bytes.length < UInt64.size)
    (length : UInt64) :
    WordCursor.slice length (cursor.onWords bytes) =
      match Read.slice length.toNat cursor with
      | .ok taken after => .ok taken (after.onWords bytes)
      | .error error after => .error error (after.onWords bytes) := by
  have whole := within.whole
  unfold WordCursor.slice
  rw [advance?_onWords within physical, Read.slice_eq]
  by_cases short : cursor.remaining < length.toNat
  · rw [if_pos short, if_pos short]
    dsimp only
    rw [remaining_onWords within physical]
  · have place : (cursor.onWords bytes).position.toNat = cursor.position :=
      UInt64.toNat_ofNat_of_lt' (by omega)
    have behind : (UInt64.ofNat (cursor.position + length.toNat)).toNat =
        cursor.position + length.toNat := UInt64.toNat_ofNat_of_lt' (by omega)
    have taken : bytes.extract cursor.position (cursor.position + length.toNat) =
        cursor.rest.take length.toNat := by
      rw [List.extract_eq_take_drop, Nat.add_sub_cancel_left, within.rest]
    rw [if_neg short, if_neg short]
    dsimp only
    rw [place, behind, ← taken]
    rfl

theorem discard_onWords (within : Within bytes cursor) (physical : bytes.length < UInt64.size)
    (length : UInt64) :
    WordCursor.discard length (cursor.onWords bytes) =
      match Read.discard length.toNat cursor with
      | .ok _ after => .ok () (after.onWords bytes)
      | .error error after => .error error (after.onWords bytes) := by
  unfold WordCursor.discard
  rw [advance?_onWords within physical, Read.discard_eq]
  by_cases short : cursor.remaining < length.toNat
  · rw [if_pos short, if_pos short]
    dsimp only
    rw [remaining_onWords within physical]
  · rw [if_neg short, if_neg short]
    rfl

end Cursor

end Classpath
