import Mathlib.Logic.Function.Basic
import Classpath.Proofs.Registry.Reloading
import Classpath.Proofs.Registry.Scanning

/-!
What is seen of a catalog, and what a scan adds to that. Numbers of archives and of objects are not
seen. Additions can be made in any order: whether all of them fit, and what is seen after them, does
not depend on it.
-/

set_option autoImplicit false

namespace Classpath

/-- A key with what is read behind it, and the class object made of that, if one is. -/
structure Addition where
  key : String
  contents : Except Error Bytes
  object : Option ClassObject

/-- What is read behind each key, and the object that each class name leads to. -/
structure View where
  contents : String → Option (Except Error Bytes)
  classes : String → Option ClassObject

namespace Addition

/-- The class in some contents, if they can be read and parsed. -/
def ofClass? (own : Bool) (key : String) (contents : Except Error Bytes) : Option Addition :=
  match contents with
  | .error _ => none
  | .ok bytes =>
      match ClassFile.parse bytes own key with
      | .error _ => none
      | .ok (file, pool) => some ⟨key, contents, some ⟨file, some pool⟩⟩

/-- Two additions of different keys and, if both are of classes, of different names. -/
def isApart (first second : Addition) : Bool :=
  first.key ≠ second.key &&
    first.object.all fun object => second.object.all fun other => object.file.name ≠ other.file.name

theorem isApart_comm (first second : Addition) : first.isApart second = second.isApart first := by
  unfold isApart
  cases first.object with
  | none =>
      cases second.object with
      | none => simp only [ne_comm, Option.all_none]
      | some other => simp only [ne_comm, Option.all_none, Option.all_some]
  | some object =>
      cases second.object with
      | none => simp only [ne_comm, Option.all_none, Option.all_some]
      | some other => simp only [ne_comm, Option.all_some]

/-- One addition after the other, as far as there are any: nothing is known to fit where something
fails by itself. -/
def both (first second : Option (List Addition)) : Option (List Addition) :=
  first.bind fun front => second.map (front ++ ·)

/-- What is added for each item in turn. -/
def together {ι : Type} (each : ι → Option (List Addition)) : List ι → Option (List Addition)
  | [] => some []
  | item :: rest => both (each item) (together each rest)

end Addition

namespace View

/-- Neither the key nor the name of the class is taken. -/
def isFree (view : View) (added : Addition) : Bool :=
  (view.contents added.key).isNone &&
    added.object.all fun object => (view.classes object.file.name).isNone

def put (view : View) (added : Addition) : View where
  contents := Function.update view.contents added.key (some added.contents)
  classes :=
    match added.object with
    | none => view.classes
    | some object => Function.update view.classes object.file.name (some object)

/-- An addition is made where it is free to be made. Where one was not, no further one is. -/
def take (view? : Option View) (added : Addition) : Option View :=
  view?.bind fun view => if view.isFree added then some (view.put added) else none

/-- Behind an addition those are free that were free before and are apart from it. -/
theorem isFree_put (view : View) (first second : Addition) :
    (view.put first).isFree second = (view.isFree second && first.isApart second) := by
  have keys : ((view.put first).contents second.key).isNone =
      ((view.contents second.key).isNone && (first.key ≠ second.key : Bool)) := by
    by_cases same : second.key = first.key
    · simp [put, same]
    · simp [put, same, Ne.symm same]
  have names (object : ClassObject) : ((view.put first).classes object.file.name).isNone =
      ((view.classes object.file.name).isNone &&
        first.object.all fun other => other.file.name ≠ object.file.name) := by
    cases added : first.object with
    | none => simp [put, added]
    | some other =>
        by_cases same : object.file.name = other.file.name
        · simp [put, added, same]
        · simp [put, added, same, Ne.symm same]
  unfold isFree Addition.isApart
  rw [keys]
  cases second.object with
  | none => simp
  | some object =>
      simp only [Option.all_some, names]
      cases first.object with
      | none => simp [Bool.and_assoc, Bool.and_comm]
      | some other => simp [Bool.and_assoc, Bool.and_comm, Bool.and_left_comm]

/-- Additions that are apart leave the same view in either order. -/
theorem put_comm (view : View) (first second : Addition) (apart : first.isApart second = true) :
    (view.put first).put second = (view.put second).put first := by
  simp only [Addition.isApart, Bool.and_eq_true, decide_eq_true_eq] at apart
  obtain ⟨keys, names⟩ := apart
  have contents : ((view.put first).put second).contents =
      ((view.put second).put first).contents :=
    Function.update_comm keys _ _ view.contents
  have classes : ((view.put first).put second).classes = ((view.put second).put first).classes := by
    cases firstObject : first.object with
    | none => simp only [put, firstObject]
    | some object =>
        cases secondObject : second.object with
        | none => simp only [put, firstObject, secondObject]
        | some other =>
            rw [firstObject, secondObject] at names
            have different : object.file.name ≠ other.file.name := by simpa using names
            simp only [put, firstObject, secondObject]
            exact Function.update_comm different _ _ view.classes
  exact congrArg₂ View.mk contents classes

theorem take_take (view : View) (first second : Addition) :
    take (take (some view) first) second =
      if (view.isFree first && view.isFree second && first.isApart second) = true then
        some ((view.put first).put second) else none := by
  unfold take
  rw [Option.bind_some]
  by_cases free : view.isFree first = true
  · rw [if_pos free, Option.bind_some, isFree_put, free, Bool.true_and]
  · have taken : view.isFree first = false := Bool.eq_false_iff.mpr free
    rw [if_neg free, Option.bind_none, taken, Bool.false_and, Bool.false_and]
    rfl

theorem take_comm (view? : Option View) (first second : Addition) :
    take (take view? first) second = take (take view? second) first := by
  cases view? with
  | none => rfl
  | some view =>
      rw [take_take, take_take, second.isApart_comm first,
        Bool.and_comm (view.isFree second) (view.isFree first)]
      by_cases fit : (view.isFree first && view.isFree second && first.isApart second) = true
      · have apart : first.isApart second = true := (Bool.and_eq_true _ _ ▸ fit).2
        rw [if_pos fit, if_pos fit, view.put_comm first second apart]
      · rw [if_neg fit, if_neg fit]

/-- All additions are made, unless there are none to make because something fails by itself. -/
def gain (view? : Option View) (additions : Option (List Addition)) : Option View :=
  additions.bind fun additions => additions.foldl take view?

theorem gain_none (additions : Option (List Addition)) : gain none additions = none := by
  cases additions with
  | none => rfl
  | some additions =>
      change additions.foldl take none = none
      induction additions with
      | nil => rfl
      | cons first rest ih => exact ih

theorem gain_both (view? : Option View) (first second : Option (List Addition)) :
    gain view? (Addition.both first second) = gain (gain view? first) second := by
  cases first with
  | none => exact (gain_none second).symm
  | some front =>
      cases second with
      | none => rfl
      | some back => exact List.foldl_append

/-- What is gained first and what is gained then may change places. -/
theorem gain_comm (view? : Option View) (first second : Option (List Addition)) :
    gain (gain view? first) second = gain (gain view? second) first := by
  cases first with
  | none => exact gain_none second
  | some front =>
      cases second with
      | none => exact (gain_none (some front)).symm
      | some back =>
          have front_back : gain (gain view? (some front)) (some back) =
              (front ++ back).foldl take view? := List.foldl_append.symm
          have back_front : gain (gain view? (some back)) (some front) =
              (back ++ front).foldl take view? := List.foldl_append.symm
          rw [front_back, back_front]
          exact List.perm_append_comm.foldl_eq' (fun x _ y _ z => take_comm z x y) view?

theorem gain_together {ι : Type} (each : ι → Option (List Addition)) (items : List ι)
    (view? : Option View) :
    gain view? (Addition.together each items) =
      items.foldl (fun view? item => gain view? (each item)) view? := by
  induction items generalizing view? with
  | nil => rfl
  | cons item rest ih => rw [Addition.together, gain_both, ih, List.foldl_cons]

/-- What several items add together does not depend on their order. -/
theorem gain_together_perm {ι : Type} (each : ι → Option (List Addition)) {order items : List ι}
    (rearranged : order.Perm items) (view? : Option View) :
    gain view? (Addition.together each order) = gain view? (Addition.together each items) := by
  rw [gain_together, gain_together]
  exact rearranged.foldl_eq' (fun x _ y _ z => gain_comm z (each x) (each y)) view?

end View

end Classpath
