import Mathlib.Data.List.Forall2
import Classpath.Proofs.Registry.Growth
import Classpath.Registry.Reload

/-!
Reloading as one step. Whether the old classes can all be read again, and what comes of it, is
told by each of them alone and by the names that they get, and not by the order they are taken in.
-/

set_option autoImplicit false

namespace Classpath

namespace Registry

/-- What is now behind the source of a class is read and parsed as the class was. -/
def Rereads (registry : Registry) (files : FileTree) (old : ClassFile) (object : ClassObject) :
    Prop :=
  ∃ entry bytes pool, registry.entries[old.source]? = some entry ∧
    entry.read files registry.archives = .ok bytes ∧
    ClassFile.parse bytes old.own old.source = .ok (object.file, pool) ∧ object.pool = some pool

variable {registry : Registry} {files : FileTree}

theorem readClassOf_eq_ok_iff (cls : ClassFile) (bytes : Bytes) :
    registry.readClassOf files cls = .ok (some bytes) ↔
      ∃ entry, registry.entries[cls.source]? = some entry ∧
        entry.read files registry.archives = .ok bytes := by
  unfold readClassOf readResource
  cases registry.entries[cls.source]? with
  | none => simp
  | some entry =>
      cases behind : entry.read files registry.archives with
      | error error => simp [behind, Functor.map, Except.map]
      | ok found => simp [behind, Functor.map, Except.map]

theorem reread_eq_ok_iff (old : ClassFile) (object : ClassObject) :
    registry.reread files old = .ok object ↔ registry.Rereads files old object := by
  have unfolded : registry.Rereads files old object ↔ ∃ bytes pool,
      registry.readClassOf files old = .ok (some bytes) ∧
        ClassFile.parse bytes old.own old.source = .ok (object.file, pool) ∧
          object.pool = some pool := by
    simp only [Rereads, readClassOf_eq_ok_iff]
    constructor
    · intro rereads
      obtain ⟨entry, bytes, pool, entered, behind, parsed⟩ := rereads
      exact ⟨bytes, pool, ⟨entry, entered, behind⟩, parsed⟩
    · intro reread
      obtain ⟨bytes, pool, ⟨entry, entered, behind⟩, parsed⟩ := reread
      exact ⟨entry, bytes, pool, entered, behind, parsed⟩
  rw [unfolded]
  unfold reread
  cases registry.readClassOf files old with
  | error error => simp [bind, Except.bind]
  | ok found =>
      cases found with
      | none => simp [bind, Except.bind, throw, throwThe, MonadExceptOf.throw]
      | some bytes =>
          cases parsed : ClassFile.parse bytes old.own old.source with
          | error error => simp [bind, Except.bind, parsed]
          | ok answer =>
              obtain ⟨file, pool⟩ := answer
              obtain ⟨objectFile, objectPool⟩ := object
              simpa [bind, Except.bind, pure, Except.pure, parsed] using fun _ => eq_comm

theorem Rereads.unique {old : ClassFile} {object other : ClassObject}
    (first : registry.Rereads files old object) (second : registry.Rereads files old other) :
    object = other := by
  have one := (reread_eq_ok_iff old object).mpr first
  have two := (reread_eq_ok_iff old other).mpr second
  exact Except.ok.inj (one.symm.trans two)

theorem Rereads.origin {old : ClassFile} {object : ClassObject}
    (rereads : registry.Rereads files old object) :
    object.file.own = old.own ∧ object.file.source = old.source := by
  obtain ⟨_, _, _, _, _, parsed, _⟩ := rereads
  exact ClassFile.parse_origin parsed

/-- No two of the classes get one name. -/
def RereadsApart (registry : Registry) (files : FileTree) (olds : List ClassFile) : Prop :=
  ∀ old ∈ olds, ∀ other ∈ olds, ∀ object otherObject, registry.Rereads files old object →
    registry.Rereads files other otherObject → object.file.name = otherObject.file.name →
      old = other

/-- What has been read again is that of the classes and what was there before. -/
def Gathers (registry : Registry) (files : FileTree) (olds : List ClassFile)
    (done result : Reread) : Prop :=
  ∀ (name : String) (object : ClassObject), result[name]? = some object ↔
    (∃ old ∈ olds, registry.Rereads files old object ∧ object.file.name = name) ∨
      done[name]? = some object

theorem rereadAll_cons (old : ClassFile) (rest : List ClassFile) (done result : Reread) :
    registry.rereadAll files (old :: rest) done = .ok result ↔
      ∃ object, registry.Rereads files old object ∧ done[object.file.name]? = none ∧
        registry.rereadAll files rest (done.insert object.file.name object) = .ok result := by
  simp only [← reread_eq_ok_iff]
  rw [rereadAll]
  cases registry.reread files old with
  | error error => simp [bind, Except.bind]
  | ok object =>
      by_cases taken : object.file.name ∈ done
      · simp [bind, Except.bind, throw, throwThe, MonadExceptOf.throw, taken]
      · simp [bind, Except.bind, taken]

theorem RereadsApart.cons {old : ClassFile} {object : ClassObject} {rest : List ClassFile}
    (rereads : registry.Rereads files old object)
    (first : ∀ next ∈ rest, ∀ nextObject, registry.Rereads files next nextObject →
      object.file.name ≠ nextObject.file.name)
    (apart : registry.RereadsApart files rest) : registry.RereadsApart files (old :: rest) := by
  intro one oneAmong two twoAmong oneObject twoObject oneRereads twoRereads same
  rcases List.mem_cons.mp oneAmong with oneFirst | oneLater
  · subst oneFirst
    rw [oneRereads.unique rereads] at same
    rcases List.mem_cons.mp twoAmong with twoFirst | twoLater
    · exact twoFirst.symm
    · exact absurd same (first two twoLater twoObject twoRereads)
  · rcases List.mem_cons.mp twoAmong with twoFirst | twoLater
    · subst twoFirst
      rw [twoRereads.unique rereads] at same
      exact absurd same.symm (first one oneLater oneObject oneRereads)
    · exact apart one oneLater two twoLater oneObject twoObject oneRereads twoRereads same

theorem Gathers.cons {old : ClassFile} {object : ClassObject} {rest : List ClassFile}
    {done result : Reread} (rereads : registry.Rereads files old object)
    (free : done[object.file.name]? = none)
    (gathers : registry.Gathers files rest (done.insert object.file.name object) result) :
    registry.Gathers files (old :: rest) done result := by
  intro name found
  rw [gathers name found, getElem?_insert_iff]
  constructor
  · rintro (⟨next, later, nextRereads, named⟩ | ⟨named, same⟩ | ⟨_, there⟩)
    · exact Or.inl ⟨next, List.mem_cons_of_mem old later, nextRereads, named⟩
    · subst same
      exact Or.inl ⟨old, List.mem_cons_self, rereads, named⟩
    · exact Or.inr there
  · rintro (⟨next, among, nextRereads, named⟩ | there)
    · rcases List.mem_cons.mp among with first | later
      · subst first
        have same := rereads.unique nextRereads
        exact Or.inr (Or.inl ⟨same ▸ named, same⟩)
      · exact Or.inl ⟨next, later, nextRereads, named⟩
    · have apartName : object.file.name ≠ name := by
        intro same
        rw [same, there] at free
        cases free
      exact Or.inr (Or.inr ⟨apartName, there⟩)

/-- The names that the classes get are told apart as the classes are gathered. -/
theorem rereadAll_sound (olds : List ClassFile) (done result : Reread)
    (ran : registry.rereadAll files olds done = .ok result) :
    (∀ old ∈ olds, ∃ object, registry.Rereads files old object ∧ done[object.file.name]? = none) ∧
      registry.RereadsApart files olds ∧ registry.Gathers files olds done result ∧
        result.size = done.size + olds.length := by
  induction olds generalizing done with
  | nil =>
      have same : done = result := Except.ok.inj ran
      subst same
      refine ⟨nofun, nofun, ?_, rfl⟩
      intro name object
      simp
  | cons old rest ih =>
      obtain ⟨object, rereads, free, behind⟩ := (rereadAll_cons old rest done result).mp ran
      obtain ⟨each, apart, gathers, sized⟩ := ih (done.insert object.file.name object) behind
      have eachApart (next : ClassFile) (among : next ∈ rest) (nextObject : ClassObject)
          (nextRereads : registry.Rereads files next nextObject) :
          object.file.name ≠ nextObject.file.name ∧ done[nextObject.file.name]? = none := by
        obtain ⟨found, foundRereads, foundFree⟩ := each next among
        rw [foundRereads.unique nextRereads] at foundFree
        exact getElem?_insert_eq_none_iff.mp foundFree
      refine ⟨?_, ?_, gathers.cons rereads free, ?_⟩
      · intro next among
        rcases List.mem_cons.mp among with first | later
        · subst first
          exact ⟨object, rereads, free⟩
        · obtain ⟨nextObject, nextRereads, _⟩ := each next later
          exact ⟨nextObject, nextRereads, (eachApart next later nextObject nextRereads).2⟩
      · apply apart.cons rereads
        intro next later nextObject nextRereads
        exact (eachApart next later nextObject nextRereads).1
      · rw [sized, size_insert_free free, List.length_cons]
        omega

theorem rereadAll_complete (olds : List ClassFile) (done : Reread) (distinct : olds.Nodup)
    (each : ∀ old ∈ olds, ∃ object, registry.Rereads files old object ∧
      done[object.file.name]? = none) (apart : registry.RereadsApart files olds) :
    ∃ result, registry.rereadAll files olds done = .ok result := by
  induction olds generalizing done with
  | nil => exact ⟨done, rfl⟩
  | cons old rest ih =>
      obtain ⟨absent, restDistinct⟩ := List.nodup_cons.mp distinct
      obtain ⟨object, rereads, free⟩ := each old List.mem_cons_self
      have restApart : registry.RereadsApart files rest := fun one oneAmong two twoAmong =>
        apart one (List.mem_cons_of_mem old oneAmong) two (List.mem_cons_of_mem old twoAmong)
      have restEach : ∀ next ∈ rest, ∃ nextObject, registry.Rereads files next nextObject ∧
          (done.insert object.file.name object)[nextObject.file.name]? = none := by
        intro next later
        obtain ⟨nextObject, nextRereads, nextFree⟩ := each next (List.mem_cons_of_mem old later)
        refine ⟨nextObject, nextRereads, getElem?_insert_eq_none_iff.mpr ⟨?_, nextFree⟩⟩
        intro same
        have one := apart old List.mem_cons_self next (List.mem_cons_of_mem old later) object
          nextObject rereads nextRereads same
        exact absent (one ▸ later)
      obtain ⟨result, ran⟩ := ih (done.insert object.file.name object) restDistinct restEach
        restApart
      exact ⟨result, (rereadAll_cons old rest done result).mpr ⟨object, rereads, free, ran⟩⟩

/-- Reading all classes again succeeds if each can be read again and no two get one name, and then
gathers just what they were read as. None of this is about their order. -/
theorem rereadAll_eq_ok_iff (olds : List ClassFile) (result : Reread) (distinct : olds.Nodup) :
    registry.rereadAll files olds ∅ = .ok result ↔
      (∀ old ∈ olds, ∃ object, registry.Rereads files old object) ∧
        registry.RereadsApart files olds ∧ registry.Gathers files olds ∅ result := by
  constructor
  · intro ran
    obtain ⟨each, apart, gathers, _⟩ := rereadAll_sound olds ∅ result ran
    refine ⟨?_, apart, gathers⟩
    intro old among
    obtain ⟨object, rereads, _⟩ := each old among
    exact ⟨object, rereads⟩
  · intro gathered
    obtain ⟨each, apart, gathers⟩ := gathered
    have eachFree : ∀ old ∈ olds, ∃ object, registry.Rereads files old object ∧
        (∅ : Reread)[object.file.name]? = none := by
      intro old among
      obtain ⟨object, rereads⟩ := each old among
      exact ⟨object, rereads, Std.ExtTreeMap.getElem?_empty⟩
    obtain ⟨found, ran⟩ := rereadAll_complete olds ∅ distinct eachFree apart
    obtain ⟨_, _, foundGathers, _⟩ := rereadAll_sound olds ∅ found ran
    have same : found = result := by
      apply Std.ExtTreeMap.ext_getElem?
      intro name
      apply Option.ext
      intro object
      rw [foundGathers name object, gathers name object]
    rw [← same]
    exact ran

/-- Classes taken in another order are gathered to the same end. -/
theorem rereadAll_perm {olds order : List ClassFile} (rearranged : order.Perm olds)
    (distinct : olds.Nodup) (result : Reread) :
    registry.rereadAll files order ∅ = .ok result ↔
      registry.rereadAll files olds ∅ = .ok result := by
  rw [rereadAll_eq_ok_iff order result (rearranged.nodup_iff.mpr distinct),
    rereadAll_eq_ok_iff olds result distinct]
  simp only [RereadsApart, Gathers, rearranged.mem_iff]

end Registry

namespace Catalog

theorem toList_enterAll (objects : Array ClassObject) (classes : ClassMap)
    (named : List (String × ClassObject)) :
    (enterAll objects classes named).1.toList = objects.toList ++ named.map Prod.snd := by
  induction named generalizing objects classes with
  | nil => simp [enterAll]
  | cons first rest ih =>
      obtain ⟨name, object⟩ := first
      rw [enterAll, ih]
      simp

/-- The objects are numbered from where the old ones end. -/
theorem enterAll_classes (objects : Array ClassObject) (classes : ClassMap)
    (named : List (String × ClassObject)) (distinct : (named.map Prod.fst).Nodup) (name : String)
    (number : Nat) :
    (enterAll objects classes named).2[name]? = some number ↔
      (∃ (offset : Nat) (object : ClassObject), named[offset]? = some (name, object) ∧
        number = objects.size + offset) ∨
      (name ∉ named.map Prod.fst ∧ classes[name]? = some number) := by
  induction named generalizing objects classes with
  | nil => simp [enterAll]
  | cons first rest ih =>
      obtain ⟨firstName, firstObject⟩ := first
      obtain ⟨absent, restDistinct⟩ := List.nodup_cons.mp distinct
      rw [enterAll, ih (objects.push firstObject) (classes.insert firstName objects.size)
        restDistinct, getElem?_insert_iff, Array.size_push]
      constructor
      · rintro (⟨offset, object, there, placed⟩ | ⟨missing, ⟨same, first⟩ | ⟨apart, there⟩⟩)
        · exact Or.inl ⟨offset + 1, object, there, by omega⟩
        · subst same
          exact Or.inl ⟨0, firstObject, rfl, first.symm⟩
        · refine Or.inr ⟨?_, there⟩
          intro among
          rcases List.mem_cons.mp among with same | later
          · exact apart same.symm
          · exact missing later
      · rintro (⟨offset, object, there, placed⟩ | ⟨missing, there⟩)
        · cases offset with
          | zero =>
              cases there
              exact Or.inr ⟨absent, Or.inl ⟨rfl, placed.symm⟩⟩
          | succ offset =>
              have further : number = objects.size + 1 + offset := by omega
              exact Or.inl ⟨offset, object, there, further⟩
        · have notFirst : firstName ≠ name := by
            intro same
            exact missing (same ▸ List.mem_cons_self)
          have notLater : name ∉ rest.map Prod.fst := by
            intro later
            exact missing (List.mem_cons_of_mem _ later)
          exact Or.inr ⟨notLater, Or.inr ⟨notFirst, there⟩⟩

theorem size_enterAll (objects : Array ClassObject) (classes : ClassMap)
    (named : List (String × ClassObject)) (distinct : (named.map Prod.fst).Nodup)
    (free : ∀ name ∈ named.map Prod.fst, classes[name]? = none) :
    (enterAll objects classes named).2.size = classes.size + named.length := by
  induction named generalizing objects classes with
  | nil => rfl
  | cons first rest ih =>
      obtain ⟨firstName, firstObject⟩ := first
      obtain ⟨absent, restDistinct⟩ := List.nodup_cons.mp distinct
      have restFree : ∀ name ∈ rest.map Prod.fst,
          (classes.insert firstName objects.size)[name]? = none := by
        intro name later
        have apart : firstName ≠ name := by
          intro same
          exact absent (same ▸ later)
        exact getElem?_insert_eq_none_iff.mpr ⟨apart, free name (List.mem_cons_of_mem _ later)⟩
      rw [enterAll, ih _ _ restDistinct restFree,
        size_insert_free (free firstName List.mem_cons_self), List.length_cons]
      omega

/-- The catalog with other objects, those read again, in the place of the registered ones. -/
def swap (catalog : Catalog) (reread : Reread) : Catalog :=
  let (objects, classes) := enterAll catalog.objects ∅ reread.toList
  { registry := { catalog.registry with classes }, objects }

theorem nodup_names (reread : Reread) : (reread.toList.map Prod.fst).Nodup := by
  rw [Std.ExtTreeMap.map_fst_toList_eq_keys]
  exact reread.nodup_keys

/-- Each name leads to a new object, which is what was read again under that name. -/
theorem swap_classes (catalog : Catalog) (reread : Reread) (name : String)
    (number : Nat)
    (entered : (catalog.swap reread).registry.classes[name]? = some number) :
    catalog.objects.size ≤ number ∧ ∃ object, (catalog.swap reread).objects[number]? = some object ∧
      reread[name]? = some object := by
  rcases (enterAll_classes _ _ _ (nodup_names reread) name number).mp entered with
    ⟨offset, object, there, placed⟩ | ⟨_, none⟩
  · refine ⟨by omega, object, ?_, ?_⟩
    · rw [← Array.getElem?_toList]
      change (enterAll catalog.objects ∅ reread.toList).1.toList[number]? = _
      rw [toList_enterAll, placed, List.getElem?_append_right (by simp)]
      simp [there]
    · exact Std.ExtTreeMap.mem_toList_iff_getElem?_eq_some.mp (List.mem_of_getElem? there)
  · rw [Std.ExtTreeMap.getElem?_empty] at none
    cases none

theorem swap_objects (catalog : Catalog) (reread : Reread) (number : Nat)
    (object : ClassObject) (there : catalog.objects[number]? = some object) :
    (catalog.swap reread).objects[number]? = some object := by
  have inside := (Array.getElem?_eq_some_iff.mp there).1
  rw [← Array.getElem?_toList]
  change (enterAll catalog.objects ∅ reread.toList).1.toList[number]? = _
  rw [toList_enterAll, List.getElem?_append_left (by simpa using inside), Array.getElem?_toList,
    there]

theorem swap_class? (catalog : Catalog) (reread : Reread) (name : String) :
    (catalog.swap reread).registry.class? (catalog.swap reread).objects name = reread[name]? := by
  unfold Registry.class?
  cases entered : (catalog.swap reread).registry.classes[name]? with
  | none =>
      cases found : reread[name]? with
      | none => rfl
      | some object =>
          have among := Std.ExtTreeMap.mem_toList_iff_getElem?_eq_some.mpr found
          obtain ⟨offset, there⟩ := List.getElem?_of_mem among
          have placed := (enterAll_classes catalog.objects ∅ _ (nodup_names reread) name
            (catalog.objects.size + offset)).mpr (Or.inl ⟨offset, object, there, rfl⟩)
          change (catalog.swap reread).registry.classes[name]? = _ at placed
          rw [entered] at placed
          cases placed
  | some number =>
      obtain ⟨_, object, there, found⟩ := swap_classes catalog reread name number entered
      rw [found, Option.bind_some, there]

theorem size_swap (catalog : Catalog) (reread : Reread) :
    (catalog.swap reread).registry.classes.size = reread.size := by
  have sized := size_enterAll catalog.objects ∅ reread.toList (nodup_names reread)
    (fun _ _ => Std.ExtTreeMap.getElem?_empty)
  rw [Std.ExtTreeMap.length_toList] at sized
  change (enterAll catalog.objects ∅ reread.toList).2.size = _
  rw [sized, Std.ExtTreeMap.size_empty, Nat.zero_add]

/-- The object that goes by a name, if one does. -/
def class? (catalog : Catalog) (name : String) : Option ClassObject :=
  catalog.registry.class? catalog.objects name

theorem class?_eq_some_iff (catalog : Catalog) (name : String) (object : ClassObject) :
    catalog.class? name = some object ↔ ∃ number : Nat,
      catalog.registry.classes[name]? = some number ∧ catalog.objects[number]? = some object :=
  Option.bind_eq_some_iff

/-- The registered classes, in the order of their names. -/
def oldClasses (catalog : Catalog) : List ClassFile :=
  (Registry.objectsOf catalog.objects catalog.registry.classes).map (·.file)

theorem mem_oldClasses (catalog : Catalog) (file : ClassFile) :
    file ∈ catalog.oldClasses ↔ ∃ name object, catalog.class? name = some object ∧
      object.file = file := by
  simp only [oldClasses, Registry.objectsOf, List.mem_map, List.mem_filterMap, class?_eq_some_iff]
  constructor
  · intro among
    obtain ⟨object, ⟨⟨name, number⟩, among, there⟩, same⟩ := among
    exact ⟨name, object, ⟨number, Std.ExtTreeMap.mem_toList_iff_getElem?_eq_some.mp among, there⟩,
      same⟩
  · intro registered
    obtain ⟨name, object, ⟨number, entered, there⟩, same⟩ := registered
    exact ⟨object, ⟨⟨name, number⟩, Std.ExtTreeMap.mem_toList_iff_getElem?_eq_some.mpr entered,
      there⟩, same⟩

theorem WellKept.class?_name {catalog : Catalog} (kept : catalog.WellKept) {name : String}
    {object : ClassObject} (found : catalog.class? name = some object) :
    object.file.name = name := by
  obtain ⟨number, entered, there⟩ := (class?_eq_some_iff catalog name object).mp found
  obtain ⟨known, knownThere, named⟩ := kept.named name number entered
  have same : known = object := Option.some.inj (knownThere.symm.trans there)
  exact same ▸ named

/-- Registered classes have different names, so no class is among them twice. -/
theorem WellKept.nodup_oldClasses {catalog : Catalog} (kept : catalog.WellKept) :
    catalog.oldClasses.Nodup := by
  have named {name : String} {number : ClassNumber} {object : ClassObject}
      (among : (name, number) ∈ catalog.registry.classes.toList)
      (there : catalog.objects[number]? = some object) : object.file.name = name :=
    kept.class?_name ((class?_eq_some_iff catalog name object).mpr
      ⟨number, Std.ExtTreeMap.mem_toList_iff_getElem?_eq_some.mp among, there⟩)
  unfold oldClasses Registry.objectsOf List.Nodup
  rw [List.pairwise_map, List.pairwise_filterMap]
  apply List.Pairwise.imp_of_mem _ catalog.registry.classes.distinct_keys_toList
  intro first second firstAmong secondAmong apart object there otherObject otherThere same
  have firstNamed := named firstAmong there
  have secondNamed := named secondAmong otherThere
  rw [same, secondNamed] at firstNamed
  exact apart (Std.LawfulEqOrd.compare_eq_iff_eq.mpr firstNamed.symm)

/-- What a name leads to was read again from a class that was there. -/
theorem swap_leads {catalog : Catalog} {files : FileTree} {reread : Reread}
    (gathers : catalog.registry.Gathers files catalog.oldClasses ∅ reread) {name : String}
    {number : Nat} {object : ClassObject}
    (entered : (catalog.swap reread).registry.classes[name]? = some number)
    (there : (catalog.swap reread).objects[number]? = some object) :
    ∃ oldName old, catalog.class? oldName = some old ∧
      catalog.registry.Rereads files old.file object ∧ object.file.name = name := by
  obtain ⟨_, known, knownThere, found⟩ := swap_classes catalog reread name number entered
  have same : known = object := Option.some.inj (knownThere.symm.trans there)
  rw [same] at found
  rcases (gathers name object).mp found with ⟨file, among, rereads, named⟩ | none
  · obtain ⟨oldName, old, registered, sameFile⟩ := (mem_oldClasses catalog file).mp among
    exact ⟨oldName, old, registered, sameFile ▸ rereads, named⟩
  · rw [Std.ExtTreeMap.getElem?_empty] at none
    cases none

/-- Objects read again from sources apart are as well kept as the old ones were. -/
theorem WellKept.swap {catalog : Catalog} (kept : catalog.WellKept) {files : FileTree}
    {reread : Reread}
    (gathers : catalog.registry.Gathers files catalog.oldClasses ∅ reread) :
    (catalog.swap reread).WellKept := by
  constructor
  · intro name number entered
    obtain ⟨_, object, there, _⟩ := swap_classes catalog reread name number entered
    obtain ⟨_, _, _, _, named⟩ := swap_leads gathers entered there
    exact ⟨object, there, named⟩
  · intro name number object entered there
    obtain ⟨_, old, _, ⟨entry, _, _, sourceEntered, _, parsed, _⟩, _⟩ :=
      swap_leads gathers entered there
    rw [(ClassFile.parse_origin parsed).2]
    exact ⟨entry, sourceEntered⟩
  · intro name other number otherNumber object otherObject entered otherEntered there otherThere one
    obtain ⟨oldName, old, registered, rereads, named⟩ := swap_leads gathers entered there
    obtain ⟨otherOldName, otherOld, otherRegistered, otherRereads, otherNamed⟩ :=
      swap_leads gathers otherEntered otherThere
    rw [rereads.origin.2, otherRereads.origin.2] at one
    obtain ⟨oldNumber, oldEntered, oldThere⟩ :=
      (class?_eq_some_iff catalog oldName old).mp registered
    obtain ⟨otherOldNumber, otherOldEntered, otherOldThere⟩ :=
      (class?_eq_some_iff catalog otherOldName otherOld).mp otherRegistered
    have sameName : oldName = otherOldName := kept.apart oldName otherOldName oldNumber
      otherOldNumber old otherOld oldEntered otherOldEntered oldThere otherOldThere one
    rw [sameName, otherRegistered] at registered
    have sameOld : otherOld = old := Option.some.inj registered
    rw [sameOld] at otherRereads
    rw [← named, ← otherNamed, rereads.unique otherRereads]
  · exact kept.stands

end Catalog

namespace Scan

/-- Reloading with the old classes taken in a given order. -/
def reloadInOrder (files : FileTree) (order : List ClassFile) : Scan Unit := do
  let catalog ← get
  let reread ← ofExcept (catalog.registry.rereadAll files order ∅)
  set (catalog.swap reread)

theorem reload_eq (files : FileTree) (catalog : Catalog) :
    reload files catalog = reloadInOrder files catalog.oldClasses catalog := rfl

theorem reloadInOrder_eq (files : FileTree) (order : List ClassFile) (catalog : Catalog) :
    reloadInOrder files order catalog =
      match catalog.registry.rereadAll files order ∅ with
      | .error error => .error error catalog
      | .ok reread => .ok () (catalog.swap reread) := by
  change ((ofExcept (catalog.registry.rereadAll files order ∅) >>= fun reread =>
    set (catalog.swap reread) : Scan Unit) catalog) = _
  cases catalog.registry.rereadAll files order ∅ with
  | error error => rfl
  | ok reread => rfl

end Scan

end Classpath
