import Classpath.Proofs.ClassFile.Pool
import Classpath.Proofs.InStep

/-!
Stepping over a pool beside reading it. Main statement: from every place both end at one place, or
both fail, and then for want of bytes or at the same unknown tag.
-/

set_option autoImplicit false

namespace Classpath

open Read (InStep Takes)

namespace Constant

/-- What stepping over a constant tells of it: whether it takes two places. -/
def ToldWide (constant : Constant) (wide : Bool) : Prop := wide = (constant.slots == 2)

section Bodies

variable {α β : Type} {read : Read α} {behind : Read β} {width front back : Nat}

/-- A body read in one go is stepped over by its width. -/
theorem inStep_one (takes : Takes width read) (make : α → Constant) (wide : Bool)
    (told : ∀ answer, ToldWide (make answer) wide) :
    InStep ToldWide (do return make (← read)) (do Read.discard width; return wide) :=
  (takes.inStep (Takes.discard width)).bind_pure make (fun _ => wide) fun answer _ _ => told answer

/-- A body read in two parts is stepped over by their widths together. -/
theorem inStep_two (takes : Takes front read) (takesBehind : Takes back behind)
    (make : α → β → Constant) (wide : Bool)
    (told : ∀ first second, ToldWide (make first second) wide) :
    InStep ToldWide (do return make (← read) (← behind))
      (do Read.discard (front + back); return wide) := by
  have together : Takes (front + back) (do return ((← read), (← behind)) : Read (α × β)) :=
    takes.bind fun first => takesBehind.bind_pure (Prod.mk first)
  have step := inStep_one together (fun both => make both.1 both.2) wide
    fun both => told both.1 both.2
  simpa only [bind_assoc, pure_bind] using step

/-- The length in front of a text is read by both, and leads both as far. -/
theorem inStep_text :
    InStep ToldWide (do
        let length ← Read.u16
        return utf8 (Text.ModifiedUtf8.decode (← Read.slice length.toNat)))
      (do
        let length ← Read.u16
        Read.discard length.toNat
        return false) := by
  apply Takes.u16.inStep_self.bind
  intro length other same
  subst same
  exact inStep_one (Takes.slice length.toNat)
    (fun payload => utf8 (Text.ModifiedUtf8.decode payload)) false fun _ => rfl

end Bodies

theorem inStep_readBody (tag : UInt8) (index : UInt16) :
    InStep ToldWide (readBody tag index) (skipBody tag index) := by
  unfold readBody
  split
  · exact inStep_text
  · exact inStep_one Takes.i32 integer false fun _ => rfl
  · exact inStep_one Takes.u32 float false fun _ => rfl
  · exact inStep_one Takes.i64 long true fun _ => rfl
  · exact inStep_one Takes.u64 double true fun _ => rfl
  · exact inStep_one Takes.u16 classRef false fun _ => rfl
  · exact inStep_one Takes.u16 stringRef false fun _ => rfl
  · exact inStep_two Takes.u16 Takes.u16 fieldRef false fun _ _ => rfl
  · exact inStep_two Takes.u16 Takes.u16 methodRef false fun _ _ => rfl
  · exact inStep_two Takes.u16 Takes.u16 interfaceMethodRef false fun _ _ => rfl
  · exact inStep_two Takes.u16 Takes.u16 nameAndType false fun _ _ => rfl
  · exact inStep_two Takes.u8 Takes.u16 methodHandle false fun _ _ => rfl
  · exact inStep_one Takes.u16 methodType false fun _ => rfl
  · exact inStep_two Takes.u16 Takes.u16 dynamic false fun _ _ => rfl
  · exact inStep_two Takes.u16 Takes.u16 invokeDynamic false fun _ _ => rfl
  · exact inStep_one Takes.u16 moduleRef false fun _ => rfl
  · exact inStep_one Takes.u16 packageRef false fun _ => rfl
  · -- no other tag is stepped over either
    have refused : skipBody tag index = throw (.ofCause (.unknownConstantTag tag index)) := by
      unfold skipBody
      split
      all_goals try contradiction
      rfl
    rw [refused]
    exact InStep.throw_unknownTag ToldWide tag index

theorem inStep_read (index : UInt16) :
    InStep ToldWide (read index) (do skipBody (← Read.u8) index) := by
  apply Takes.u8.inStep_self.bind
  intro tag other same
  subst same
  exact inStep_readBody tag index

end Constant

namespace Pool

/-- From one place on, with the same count: however the next place is come by, it is the same. -/
theorem inStep_from (count index : UInt16) (entries : Array (Option Constant)) :
    InStep (fun _ _ => True) (readFrom count index entries) (skipFrom count index) := by
  induction index, entries using Pool.readFrom.induct count with
  | case1 index entries room ihWide ihNarrow =>
      rw [readFrom, skipFrom, if_pos room, if_pos room]
      have constants : InStep Constant.ToldWide
          (during (.readingPoolEntry index.toNat) (Constant.read index))
          (do Constant.skipBody (← Read.u8) index) :=
        (Constant.inStep_read index).during_left _
      rw [← bind_assoc]
      apply constants.bind
      intro constant wide told
      rw [told, next_eq_advance]
      dsimp only
      split
      · exact ihWide constant
      · exact ihNarrow constant
  | case2 index entries full =>
      rw [readFrom, skipFrom, if_neg full, if_neg full]
      exact InStep.pure trivial

/-- Reading a pool and stepping over it are in step. -/
theorem inStep_read : InStep (fun _ _ => True) read skip := by
  have counts : InStep Eq (during .readingPoolCount Read.u16)
      (during .readingPoolCount Read.u16) :=
    (Takes.u16.inStep_self.during_left _).during_right _
  apply counts.bind
  intro count other same
  subst same
  have skipped : InStep (fun _ _ => True) (do return Pool.mk (← readFrom count 1 #[none]))
      (do return id (← skipFrom count 1)) :=
    (inStep_from count 1 #[none]).bind_pure Pool.mk id fun _ _ _ => trivial
  simpa using skipped

/-- From every place in every run of bytes, a pool is stepped over exactly where it can be read, up
to the place where reading ends; where it cannot, both fail for want of bytes, or both at the same
unknown tag of the same constant. -/
theorem skip_exactly_where_read (cursor : Cursor) :
    (∃ pool after, read cursor = .ok pool after ∧ skip cursor = .ok () after) ∨
    ∃ error skipError after skipAfter, read cursor = .error error after ∧
      skip cursor = .error skipError skipAfter ∧ error.cause.Alike skipError.cause := by
  rcases inStep_read cursor with ⟨pool, _, after, ran, skipped, _⟩ |
    ⟨error, skipError, after, skipAfter, failed, skipFailed, alike⟩
  · exact Or.inl ⟨pool, after, ran, skipped⟩
  · exact Or.inr ⟨error, skipError, after, skipAfter, failed, skipFailed, alike⟩

end Pool

end Classpath
