import Classpath.Proofs.Registry.Reloading

/-!
Reloading a well-kept catalog is a transaction: it succeeds if each class can be read again under
a name of its own, has then put one object in the place of each, and has otherwise done nothing.
-/

set_option autoImplicit false

namespace Classpath

namespace Catalog

/-- Each registered class can be read again, and no two get one name. -/
structure Reloadable (catalog : Catalog) (files : FileTree) : Prop where
  each : ∀ (name : String) (old : ClassObject), catalog.class? name = some old →
    ∃ fresh, catalog.registry.Rereads files old.file fresh
  apart : ∀ (name other : String) (old otherOld fresh otherFresh : ClassObject),
    catalog.class? name = some old → catalog.class? other = some otherOld →
    catalog.registry.Rereads files old.file fresh →
    catalog.registry.Rereads files otherOld.file otherFresh →
    fresh.file.name = otherFresh.file.name → name = other

/-- What a catalog is after its classes have been read again. -/
structure Reloaded (files : FileTree) (catalog after : Catalog) : Prop where
  /-- In the place of each class stands what its source is now read as. -/
  each : ∀ (name : String) (old : ClassObject), catalog.class? name = some old →
    ∃ fresh, catalog.registry.Rereads files old.file fresh ∧ fresh.file.own = old.file.own ∧
      fresh.file.source = old.file.source ∧ after.class? fresh.file.name = some fresh
  /-- There are no other classes. -/
  only : ∀ (name : String) (fresh : ClassObject), after.class? name = some fresh →
    fresh.file.name = name ∧ ∃ oldName old, catalog.class? oldName = some old ∧
      catalog.registry.Rereads files old.file fresh
  size : after.registry.classes.size = catalog.registry.classes.size
  entries : after.registry.entries = catalog.registry.entries
  archives : after.registry.archives = catalog.registry.archives
  /-- The old objects are still there for those who hold them. -/
  objects : ∀ (number : Nat) (object : ClassObject), catalog.objects[number]? = some object →
    after.objects[number]? = some object
  /-- No class is an old object. -/
  anew : ∀ (name : String) (number : Nat), after.registry.classes[name]? = some number →
    catalog.objects.size ≤ number

variable {files : FileTree} {catalog : Catalog}

theorem reloadable_iff (kept : catalog.WellKept) : catalog.Reloadable files ↔
    (∀ old ∈ catalog.oldClasses, ∃ fresh, catalog.registry.Rereads files old fresh) ∧
      catalog.registry.RereadsApart files catalog.oldClasses := by
  constructor
  · intro reloadable
    constructor
    · intro file among
      obtain ⟨name, old, found, same⟩ := (mem_oldClasses catalog file).mp among
      exact same ▸ reloadable.each name old found
    · intro file among other otherAmong fresh otherFresh rereads otherRereads sameName
      obtain ⟨name, old, found, same⟩ := (mem_oldClasses catalog file).mp among
      obtain ⟨otherName, otherOld, otherFound, otherSame⟩ :=
        (mem_oldClasses catalog other).mp otherAmong
      subst same
      subst otherSame
      have one := reloadable.apart name otherName old otherOld fresh otherFresh found otherFound
        rereads otherRereads sameName
      rw [one, otherFound] at found
      rw [Option.some.inj found]
  · intro reloadable
    obtain ⟨each, apart⟩ := reloadable
    constructor
    · intro name old found
      exact each old.file ((mem_oldClasses catalog _).mpr ⟨name, old, found, rfl⟩)
    · intro name other old otherOld fresh otherFresh found otherFound rereads otherRereads sameName
      have one := apart old.file ((mem_oldClasses catalog _).mpr ⟨name, old, found, rfl⟩)
        otherOld.file ((mem_oldClasses catalog _).mpr ⟨other, otherOld, otherFound, rfl⟩)
        fresh otherFresh rereads otherRereads sameName
      rw [← kept.class?_name found, ← kept.class?_name otherFound, one]

/-- Every registered class has its object. -/
theorem WellKept.length_oldClasses (kept : catalog.WellKept) :
    catalog.oldClasses.length = catalog.registry.classes.size := by
  rw [oldClasses, List.length_map, ← Std.ExtTreeMap.length_toList, Registry.objectsOf,
    List.filterMap_length_eq_length]
  intro named among
  obtain ⟨object, there, _⟩ :=
    kept.named named.1 named.2 (Std.ExtTreeMap.mem_toList_iff_getElem?_eq_some.mp among)
  exact Option.isSome_of_eq_some there

theorem WellKept.swap_reloaded (kept : catalog.WellKept) {reread : Reread}
    (ran : catalog.registry.rereadAll files catalog.oldClasses ∅ = .ok reread) :
    Reloaded files catalog (catalog.swap reread) := by
  obtain ⟨each, _, gathers, sized⟩ :=
    Registry.rereadAll_sound catalog.oldClasses ∅ reread ran
  constructor
  · intro name old found
    have among := (mem_oldClasses catalog old.file).mpr ⟨name, old, found, rfl⟩
    obtain ⟨fresh, rereads, _⟩ := each old.file among
    refine ⟨fresh, rereads, rereads.origin.1, rereads.origin.2, ?_⟩
    rw [class?, swap_class?]
    exact (gathers fresh.file.name fresh).mpr (Or.inl ⟨old.file, among, rereads, rfl⟩)
  · intro name fresh found
    rw [class?, swap_class?] at found
    rcases (gathers name fresh).mp found with ⟨file, among, rereads, named⟩ | none
    · obtain ⟨oldName, old, registered, same⟩ := (mem_oldClasses catalog file).mp among
      exact ⟨named, oldName, old, registered, same ▸ rereads⟩
    · rw [Std.ExtTreeMap.getElem?_empty] at none
      cases none
  · rw [size_swap, sized, kept.length_oldClasses, Std.ExtTreeMap.size_empty, Nat.zero_add]
  · rfl
  · rfl
  · exact swap_objects catalog reread
  · intro name number entered
    exact (swap_classes catalog reread name number entered).1

end Catalog

namespace Scan

variable {files : FileTree} {catalog after : Catalog}

theorem reloadInOrder_eq_ok_iff (order : List ClassFile) :
    reloadInOrder files order catalog = .ok () after ↔ ∃ reread,
      catalog.registry.rereadAll files order ∅ = .ok reread ∧ catalog.swap reread = after := by
  rw [reloadInOrder_eq]
  cases catalog.registry.rereadAll files order ∅ with
  | error error => simp
  | ok reread => simp

theorem reload_succeeds_iff (kept : catalog.WellKept) :
    (∃ after, reload files catalog = .ok () after) ↔ catalog.Reloadable files := by
  rw [Catalog.reloadable_iff kept]
  simp only [reload_eq, reloadInOrder_eq_ok_iff]
  constructor
  · intro reloaded
    obtain ⟨after, reread, ran, swapped⟩ := reloaded
    obtain ⟨each, apart, _⟩ :=
      (Registry.rereadAll_eq_ok_iff _ reread kept.nodup_oldClasses).mp ran
    exact ⟨each, apart⟩
  · intro reloadable
    obtain ⟨each, apart⟩ := reloadable
    have eachFree : ∀ old ∈ catalog.oldClasses, ∃ fresh,
        catalog.registry.Rereads files old fresh ∧ (∅ : Reread)[fresh.file.name]? = none := by
      intro old among
      obtain ⟨fresh, rereads⟩ := each old among
      exact ⟨fresh, rereads, Std.ExtTreeMap.getElem?_empty⟩
    obtain ⟨reread, ran⟩ :=
      Registry.rereadAll_complete catalog.oldClasses ∅ kept.nodup_oldClasses eachFree apart
    exact ⟨catalog.swap reread, reread, ran, rfl⟩

theorem reloaded_of_reload (kept : catalog.WellKept) (ran : reload files catalog = .ok () after) :
    catalog.Reloaded files after := by
  rw [reload_eq] at ran
  obtain ⟨reread, gathered, swapped⟩ := (reloadInOrder_eq_ok_iff _).mp ran
  exact swapped ▸ kept.swap_reloaded gathered

/-- A reload that fails has done nothing, in whatever order it took the classes. -/
theorem eq_of_reloadInOrder_error {order : List ClassFile} {error : Error}
    (ran : reloadInOrder files order catalog = .error error after) : after = catalog := by
  rw [reloadInOrder_eq] at ran
  split at ran
  · cases ran
    rfl
  · cases ran

/-- The order that the classes are taken in matters neither to whether a reload succeeds nor to
the catalog that it leaves. -/
theorem reloadInOrder_eq_ok_iff_reload (kept : catalog.WellKept) {order : List ClassFile}
    (rearranged : order.Perm catalog.oldClasses) :
    reloadInOrder files order catalog = .ok () after ↔ reload files catalog = .ok () after := by
  rw [reload_eq, reloadInOrder_eq_ok_iff, reloadInOrder_eq_ok_iff]
  simp only [Registry.rereadAll_perm rearranged kept.nodup_oldClasses]

/-- Classes that are read again as they were stay under their names with their headers. -/
theorem reload_unchanged (kept : catalog.WellKept)
    (same : ∀ (name : String) (old : ClassObject), catalog.class? name = some old →
      ∃ fresh, catalog.registry.Rereads files old.file fresh ∧ fresh.file = old.file) :
    ∃ after, reload files catalog = .ok () after ∧ ∀ name : String,
      (after.class? name).map ClassObject.file = (catalog.class? name).map ClassObject.file := by
  have reloadable : catalog.Reloadable files := by
    constructor
    · intro name old found
      obtain ⟨fresh, rereads, _⟩ := same name old found
      exact ⟨fresh, rereads⟩
    · intro name other old otherOld fresh otherFresh found otherFound rereads otherRereads sameName
      obtain ⟨known, knownRereads, knownFile⟩ := same name old found
      obtain ⟨otherKnown, otherKnownRereads, otherKnownFile⟩ := same other otherOld otherFound
      rw [rereads.unique knownRereads, otherRereads.unique otherKnownRereads, knownFile,
        otherKnownFile, kept.class?_name found, kept.class?_name otherFound] at sameName
      exact sameName
  obtain ⟨after, ran⟩ := (reload_succeeds_iff kept).mpr reloadable
  have reloaded := reloaded_of_reload kept ran
  refine ⟨after, ran, ?_⟩
  intro name
  apply Option.ext
  intro file
  simp only [Option.map_eq_some_iff]
  constructor
  · intro placed
    obtain ⟨fresh, found, sameFile⟩ := placed
    obtain ⟨named, oldName, old, registered, rereads⟩ := reloaded.only name fresh found
    obtain ⟨known, knownRereads, knownFile⟩ := same oldName old registered
    have headers : fresh.file = old.file := by rw [rereads.unique knownRereads, knownFile]
    have names : oldName = name := by
      rw [← kept.class?_name registered, ← headers, named]
    exact ⟨old, names ▸ registered, headers.symm.trans sameFile⟩
  · intro placed
    obtain ⟨old, registered, sameFile⟩ := placed
    obtain ⟨fresh, rereads, _, _, found⟩ := reloaded.each name old registered
    obtain ⟨known, knownRereads, knownFile⟩ := same name old registered
    have headers : fresh.file = old.file := by rw [rereads.unique knownRereads, knownFile]
    rw [headers, kept.class?_name registered] at found
    exact ⟨fresh, found, headers.trans sameFile⟩

end Scan

end Classpath
