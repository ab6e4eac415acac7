import Mathlib.Order.Monotone.Basic
import Classpath.Proofs.Registry.Reloading
import Classpath.Proofs.Registry.Scanning

/-!
One registry over two stores of class objects, which may number the same objects differently. Main
statement: whatever is scanned or reloaded, it ends alike over both stores, and the registry goes on
to be the same but for the numbers.
-/

set_option autoImplicit false

namespace Classpath

/-- The objects of one store are in the other, each at its place, and what is put into both is put
at such a place. -/
structure Located (place : Nat → Nat) (alone joint : Array ClassObject) : Prop where
  objects : ∀ number, joint[place number]? = alone[number]?
  next : ∀ offset, place (alone.size + offset) = joint.size + offset

theorem Located.next_zero {place : Nat → Nat} {alone joint : Array ClassObject}
    (located : Located place alone joint) : place alone.size = joint.size :=
  located.next 0

theorem Located.push {place : Nat → Nat} {alone joint : Array ClassObject}
    (located : Located place alone joint) (object : ClassObject) :
    Located place (alone.push object) (joint.push object) := by
  constructor
  · intro number
    rcases Nat.lt_trichotomy number alone.size with inside | last | beyond
    · have there := Array.getElem?_eq_getElem inside
      rw [getElem?_push_kept there]
      apply getElem?_push_kept
      rw [located.objects number, there]
    · rw [last, located.next_zero, Array.getElem?_push_size, Array.getElem?_push_size]
    · obtain ⟨offset, rfl⟩ := Nat.exists_eq_add_of_lt beyond
      have placed := located.next (offset + 1)
      rw [← Nat.add_assoc] at placed
      rw [placed, Array.getElem?_eq_none, Array.getElem?_eq_none]
      · rw [Array.size_push]
        omega
      · rw [Array.size_push]
        omega
  · intro offset
    rw [Array.size_push, Array.size_push, Nat.add_assoc, Nat.add_assoc]
    exact located.next (1 + offset)

/-- Where objects are once others have been put into the joint store. -/
def relocate (place : Nat → Nat) (size bound : Nat) (number : Nat) : Nat :=
  if number < size then place number else bound + (number - size)

section Relocate

variable {place : Nat → Nat} {size bound number : Nat}

theorem relocate_of_lt (inside : number < size) :
    relocate place size bound number = place number := if_pos inside

theorem relocate_of_le (behind : size ≤ number) :
    relocate place size bound number = bound + (number - size) :=
  if_neg (Nat.not_lt_of_le behind)

theorem relocate_strictMono (increasing : StrictMono place)
    (below : ∀ number, number < size → place number < bound) :
    StrictMono (relocate place size bound) := by
  intro first second less
  by_cases secondInside : second < size
  · rw [relocate_of_lt (Nat.lt_trans less secondInside), relocate_of_lt secondInside]
    exact increasing less
  · by_cases firstInside : first < size
    · have lower := below first firstInside
      rw [relocate_of_lt firstInside, relocate_of_le (by omega)]
      omega
    · rw [relocate_of_le (by omega), relocate_of_le (by omega)]
      omega

theorem Located.place_lt {alone joint : Array ClassObject} (located : Located place alone joint)
    (increasing : StrictMono place) (inside : number < alone.size) : place number < joint.size := by
  rw [← located.next_zero]
  exact increasing inside

theorem Located.relocate {alone joint later : Array ClassObject}
    (located : Located place alone joint)
    (kept : ∀ number, number < alone.size → later[place number]? = joint[place number]?) :
    Located (relocate place alone.size later.size) alone later := by
  constructor
  · intro number
    by_cases inside : number < alone.size
    · rw [relocate_of_lt inside, kept number inside, located.objects]
    · rw [relocate_of_le (by omega), Array.getElem?_eq_none (by omega),
        Array.getElem?_eq_none (by omega)]
  · intro offset
    rw [relocate_of_le (by omega)]
    omega

/-- An object is changed in both stores, each time at its place. -/
theorem Located.set {alone joint : Array ClassObject} (located : Located place alone joint)
    (increasing : StrictMono place) (number : Nat) (object : ClassObject) :
    Located place (alone.setIfInBounds number object)
      (joint.setIfInBounds (place number) object) := by
  constructor
  · intro other
    rw [Array.getElem?_setIfInBounds, Array.getElem?_setIfInBounds]
    by_cases same : number = other
    · subst same
      have inside : place number < joint.size ↔ number < alone.size := by
        rw [← located.next_zero, increasing.lt_iff_lt]
      simp only [if_true, inside]
    · have apart : place number ≠ place other := fun one => same (increasing.injective one)
      rw [if_neg same, if_neg apart, located.objects]
  · intro offset
    rw [Array.size_setIfInBounds, Array.size_setIfInBounds]
    exact located.next offset

end Relocate

theorem map_insert {β γ : Type} (map : Std.ExtTreeMap String β) (key : String) (value : β)
    (work : β → γ) :
    (map.insert key value).map (fun _ => work) =
      (map.map fun _ => work).insert key (work value) := by
  apply Std.ExtTreeMap.ext_getElem?
  intro other
  rw [Std.ExtTreeMap.getElem?_map, Std.ExtTreeMap.getElem?_insert, Std.ExtTreeMap.getElem?_insert,
    Std.ExtTreeMap.getElem?_map]
  split
  · rfl
  · rfl

theorem map_empty {β γ : Type} (work : β → γ) :
    (∅ : Std.ExtTreeMap String β).map (fun _ => work) = ∅ := by
  apply Std.ExtTreeMap.ext_getElem?
  intro key
  rw [Std.ExtTreeMap.getElem?_map, Std.ExtTreeMap.getElem?_empty, Std.ExtTreeMap.getElem?_empty,
    Option.map_none]

namespace Registry

variable {place : Nat → Nat}

/-- The registry with the objects of its classes at their places. -/
def placed (place : Nat → Nat) (registry : Registry) : Registry :=
  { registry with classes := registry.classes.map fun _ => place }

@[simp] theorem getElem?_placed (registry : Registry) (name : String) :
    (registry.placed place).classes[name]? = registry.classes[name]?.map place :=
  Std.ExtTreeMap.getElem?_map

@[simp] theorem resourceKeys_placed (registry : Registry) :
    (registry.placed place).resourceKeys = registry.resourceKeys := rfl

@[simp] theorem classNames_placed (registry : Registry) :
    (registry.placed place).classNames = registry.classNames :=
  Std.ExtTreeMap.keys_map

@[simp] theorem close_placed (registry : Registry) :
    (registry.placed place).close = (registry.close.1, registry.close.2.placed place) := rfl

theorem empty_placed (walker : Option Walker) : (empty walker).placed place = empty walker := by
  rw [placed, empty, map_empty]

theorem placed_congr {registry : Registry} {other : Nat → Nat}
    (same : ∀ (name : String) (number : Nat), registry.classes[name]? = some number →
      other number = place number) : registry.placed other = registry.placed place := by
  have classes : (registry.placed other).classes = (registry.placed place).classes := by
    apply Std.ExtTreeMap.ext_getElem?
    intro name
    rw [getElem?_placed, getElem?_placed]
    cases entered : registry.classes[name]? with
    | none => rfl
    | some number => exact congrArg some (same name number entered)
  change { registry with classes := (registry.placed other).classes } = _
  rw [classes]
  rfl

theorem objectsOf_placed {alone joint : Array ClassObject} (located : Located place alone joint)
    (classes : ClassMap) :
    objectsOf joint (classes.map fun _ => place) = objectsOf alone classes := by
  unfold objectsOf
  rw [Std.ExtTreeMap.toList_map, List.filterMap_map]
  apply List.filterMap_congr
  intro named _
  exact located.objects named.2

theorem class?_placed {alone joint : Array ClassObject} (located : Located place alone joint)
    (registry : Registry) (name : String) :
    (registry.placed place).class? joint name = registry.class? alone name := by
  unfold class?
  rw [getElem?_placed]
  cases registry.classes[name]? with
  | none => rfl
  | some number => exact located.objects number

theorem readClass_placed {alone joint : Array ClassObject} (located : Located place alone joint)
    (registry : Registry) (files : FileTree) (name : String) :
    (registry.placed place).readClass files joint name = registry.readClass files alone name := by
  unfold readClass
  rw [class?_placed located]
  rfl

/-- Classes are read again through entries alone. -/
theorem rereadAll_placed (registry : Registry) (files : FileTree) (olds : List ClassFile)
    (done : Reread) :
    (registry.placed place).rereadAll files olds done = registry.rereadAll files olds done := by
  induction olds generalizing done with
  | nil => rfl
  | cons old rest ih =>
      unfold rereadAll
      simp only [ih]
      rfl

end Registry

namespace Catalog

variable {place : Nat → Nat} {alone joint : Catalog}

/-- The registry is the same but for the places of its objects. -/
structure Mirrors (place : Nat → Nat) (alone joint : Catalog) : Prop where
  registry : joint.registry = alone.registry.placed place
  located : Located place alone.objects joint.objects

namespace Mirrors

theorem withArchives (mirrors : alone.Mirrors place joint) (archives : Array Archive) :
    (alone.withArchives archives).Mirrors place (joint.withArchives archives) := by
  refine ⟨?_, mirrors.located⟩
  rw [Catalog.withArchives, mirrors.registry]
  rfl

theorem enter (mirrors : alone.Mirrors place joint) (key : String) (entry : Entry) :
    (alone.enter key entry).Mirrors place (joint.enter key entry) := by
  refine ⟨?_, mirrors.located⟩
  rw [Catalog.enter, mirrors.registry]
  rfl

theorem add (mirrors : alone.Mirrors place joint) (object : ClassObject) :
    (alone.add object).Mirrors place (joint.add object) := by
  refine ⟨?_, mirrors.located.push object⟩
  rw [Catalog.add, Catalog.add, mirrors.registry, ← mirrors.located.next_zero]
  unfold Registry.placed
  dsimp only
  rw [map_insert]

/-- Objects are put into both stores one after the other. -/
theorem enterAll {objects others : Array ClassObject} (located : Located place objects others)
    (classes : ClassMap) (named : List (String × ClassObject)) :
    (Catalog.enterAll others (classes.map fun _ => place) named).2 =
      (Catalog.enterAll objects classes named).2.map (fun _ => place) ∧
    Located place (Catalog.enterAll objects classes named).1
      (Catalog.enterAll others (classes.map fun _ => place) named).1 := by
  induction named generalizing objects others classes with
  | nil => exact ⟨rfl, located⟩
  | cons first rest ih =>
      obtain ⟨name, object⟩ := first
      have next := ih (located.push object) (classes.insert name objects.size)
      rw [map_insert, located.next_zero] at next
      exact next

theorem oldClasses (mirrors : alone.Mirrors place joint) : joint.oldClasses = alone.oldClasses := by
  rw [Catalog.oldClasses, Catalog.oldClasses, mirrors.registry]
  exact congrArg _ (Registry.objectsOf_placed mirrors.located _)

theorem swap (mirrors : alone.Mirrors place joint) (reread : Reread) :
    (alone.swap reread).Mirrors place (joint.swap reread) := by
  have fresh := enterAll mirrors.located ∅ reread.toList
  rw [map_empty] at fresh
  obtain ⟨classes, located⟩ := fresh
  refine ⟨?_, located⟩
  change { joint.registry with classes := (Catalog.enterAll joint.objects ∅ reread.toList).2 } = _
  rw [mirrors.registry, classes]
  rfl

end Mirrors

end Catalog

namespace Scan

open Catalog (Mirrors)

variable {place : Nat → Nat} {α β : Type}

/-- Both end with one answer or in one error. -/
inductive Alike (place : Nat → Nat) :
    EStateM.Result Error Catalog α → EStateM.Result Error Catalog α → Prop
  | ok {value : α} {alone joint : Catalog} (mirrors : alone.Mirrors place joint) :
      Alike place (.ok value alone) (.ok value joint)
  | error {error : Error} {alone joint : Catalog} (mirrors : alone.Mirrors place joint) :
      Alike place (.error error alone) (.error error joint)

/-- A step that ends alike over both stores. -/
def Mirrored (place : Nat → Nat) (step : Scan α) : Prop :=
  ∀ alone joint : Catalog, alone.Mirrors place joint → Alike place (step alone) (step joint)

theorem mirrored_pure (value : α) : Mirrored place (pure value) :=
  fun _ _ mirrors => .ok mirrors

theorem mirrored_throw (error : Error) : Mirrored place (throw error : Scan α) :=
  fun _ _ mirrors => .error mirrors

theorem mirrored_bind {first : Scan α} {next : α → Scan β} (start : Mirrored place first)
    (rest : ∀ value, Mirrored place (next value)) : Mirrored place (first >>= next) := by
  intro alone joint mirrors
  have alike := start alone joint mirrors
  change Alike place (EStateM.bind first next alone) (EStateM.bind first next joint)
  unfold EStateM.bind
  generalize first alone = one at alike
  generalize first joint = other at alike
  cases alike with
  | ok kept => exact rest _ _ _ kept
  | error kept => exact .error kept

theorem mirrored_ofExcept_bind (outcome : Except Error α) {next : α → Scan β}
    (rest : ∀ value, Mirrored place (next value)) :
    Mirrored place ((ofExcept outcome : Scan α) >>= next) := by
  apply mirrored_bind _ rest
  cases outcome with
  | error error => exact mirrored_throw error
  | ok value => exact mirrored_pure value

theorem mirrored_during {step : Scan α} (start : Mirrored place step) (context : Context) :
    Mirrored place (during context step) := by
  intro alone joint mirrors
  have alike := start alone joint mirrors
  unfold during
  generalize step alone = first at alike
  generalize step joint = second at alike
  cases alike with
  | ok kept => exact .ok kept
  | error kept => exact .error kept

theorem mirrored_addResource (key : String) (entry : Entry) :
    Mirrored place (addResource key entry) := by
  intro alone joint mirrors
  have entries : joint.registry.entries[key]? = alone.registry.entries[key]? := by
    rw [mirrors.registry]
    rfl
  rw [addResource_eq, addResource_eq, entries]
  cases alone.registry.entries[key]? with
  | some current => exact .error mirrors
  | none => exact .ok (mirrors.enter key entry)

theorem mirrored_addClass (files : FileTree) (key : String) (own : Bool) :
    Mirrored place (addClass files key own) := by
  intro alone joint mirrors
  have entries : joint.registry.entries[key]? = alone.registry.entries[key]? := by
    rw [mirrors.registry]
    rfl
  cases entered : alone.registry.entries[key]? with
  | none =>
      rw [addClass, get_bind, get_bind, entries, entered]
      exact .error mirrors
  | some entry =>
      rw [addClass_eq files key own alone entry entered,
        addClass_eq files key own joint entry (entries.trans entered), mirrors.registry]
      have archives : (alone.registry.placed place).archives = alone.registry.archives := rfl
      rw [archives]
      cases entry.read files alone.registry.archives with
      | error error => exact .error mirrors
      | ok bytes =>
          dsimp only
          cases ClassFile.parse bytes own key with
          | error error => exact .error mirrors
          | ok found =>
              obtain ⟨file, pool⟩ := found
              dsimp only
              have taken : (alone.registry.placed place).classes.contains file.name =
                  alone.registry.classes.contains file.name := by
                simp only [Std.ExtTreeMap.contains_eq_isSome_getElem?, Registry.getElem?_placed,
                  Option.isSome_map]
              rw [taken]
              split
              · exact .error mirrors
              · exact .ok (mirrors.add ⟨file, some pool⟩)

variable (files : FileTree) (own : Bool)

theorem mirrored_addMembers (archive : Nat) (path : Path.Text) (members : List Archive.Listed) :
    Mirrored place (addMembers files archive path own members) := by
  induction members with
  | nil => exact mirrored_pure ()
  | cons member rest ih =>
      unfold addMembers
      dsimp only
      split
      · apply mirrored_bind (mirrored_addResource _ _)
        intro _
        split
        · exact mirrored_bind (mirrored_addClass files _ own) fun _ => ih
        · exact ih
      · exact ih

theorem mirrored_addArchive (archive : Archive) : Mirrored place (addArchive files archive own) := by
  intro alone joint mirrors
  have archives : joint.registry.archives = alone.registry.archives := by
    rw [mirrors.registry]
    rfl
  have rest : Mirrored place ((ofExcept archive.members : Scan _) >>= fun listed =>
      addMembers files alone.registry.archives.size archive.path own listed) :=
    mirrored_ofExcept_bind archive.members fun listed => mirrored_addMembers files own _ _ listed
  have opened := rest _ _ (mirrors.withArchives (alone.registry.archives.push archive))
  change Alike place _ ((ofExcept archive.members >>= fun listed =>
    addMembers files joint.registry.archives.size archive.path own listed : Scan Unit)
      (joint.withArchives (joint.registry.archives.push archive)))
  rw [archives]
  exact opened

/-- Whether nothing was added is seen alike over both stores. -/
theorem mirrored_scanArchive (path : Path.Text) : Mirrored place (scanArchive files path own) := by
  intro alone joint mirrors
  rw [scanArchive_eq, scanArchive_eq]
  cases Archive.openAt files path with
  | error error => exact .error mirrors
  | ok archive =>
      have alike := mirrored_during (mirrored_addArchive files own archive)
        (.scanningArchive path) alone joint mirrors
      have entries : joint.registry.entries = alone.registry.entries := by
        rw [mirrors.registry]
        rfl
      have archives : joint.registry.archives = alone.registry.archives := by
        rw [mirrors.registry]
        rfl
      have closed {after other : Catalog} (kept : after.Mirrors place other) :
          (if after.registry.entries.size = alone.registry.entries.size then
            after.withArchives
              (after.registry.archives.modify alone.registry.archives.size Archive.close)
            else after).Mirrors place
          (if other.registry.entries.size = joint.registry.entries.size then
            other.withArchives
              (other.registry.archives.modify joint.registry.archives.size Archive.close)
            else other) := by
        rw [entries, archives, kept.registry]
        change Catalog.Mirrors place _ (if after.registry.entries.size = _ then _ else _)
        split
        · exact kept.withArchives _
        · exact kept
      dsimp only
      generalize during (.scanningArchive path) (addArchive files archive own) alone = one at alike
      generalize during (.scanningArchive path) (addArchive files archive own) joint = other
        at alike
      cases alike with
      | ok kept => exact .ok (closed kept)
      | error kept => exact .error (closed kept)

theorem mirrored_scanFile (key : String) (path : Path.Text) :
    Mirrored place (scanFile files key path own) := by
  unfold scanFile
  split
  · exact mirrored_bind (mirrored_addResource key _) fun _ => mirrored_addClass files key own
  · exact mirrored_scanArchive files own path
  · exact mirrored_scanArchive files own path
  · split
    · exact mirrored_addResource key _
    · exact mirrored_pure ()

theorem mirrored_scanFiles (root : Path.Text) (paths : List Path.Text) :
    Mirrored place (scanFiles files root own paths) := by
  induction paths with
  | nil => exact mirrored_pure ()
  | cons path rest ih => exact mirrored_bind (mirrored_scanFile files own _ path) fun _ => ih

theorem mirrored_scanDirectory (root : Path.Text) :
    Mirrored place (scanDirectory files root own) := by
  intro alone joint mirrors
  have walker : joint.registry.walker = alone.registry.walker := by
    rw [mirrors.registry]
    rfl
  rw [scanDirectory_eq, scanDirectory_eq, walker]
  split
  · exact .error mirrors
  · split
    · exact .error mirrors
    · exact mirrored_scanFiles files own root _ alone joint mirrors

theorem mirrored_scan (path : Path.Text) : Mirrored place (scan files path own) := by
  unfold scan
  split
  · exact mirrored_scanDirectory files own path
  · split
    · exact mirrored_scanFile files own _ path
    · exact mirrored_throw _

theorem mirrored_reload : Mirrored place (reload files) := by
  intro alone joint mirrors
  rw [reload_eq, reload_eq, reloadInOrder_eq, reloadInOrder_eq, mirrors.oldClasses,
    mirrors.registry, Registry.rereadAll_placed]
  cases alone.registry.rereadAll files alone.oldClasses ∅ with
  | error error => exact .error mirrors
  | ok result => exact .ok (mirrors.swap result)

end Scan

end Classpath
