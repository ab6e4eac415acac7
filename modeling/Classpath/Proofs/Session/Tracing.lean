import Classpath.Proofs.Registry.Transaction
import Classpath.Proofs.Session.Reachable

/-!
Where classes come from: with each class object, the bytes are recorded that stood behind its
source when it came to be. Classes whose bytes are still those are the same after a reload.
-/

set_option autoImplicit false

namespace Classpath

namespace Session

/-- What now stands behind the source of an object in the current registry, if it can be read. -/
def bytesBehind (session : Session) (number : ClassNumber) : Option Bytes :=
  match session.objects[number]? with
  | none => none
  | some object =>
      match session.registry.readClassOf session.files object.file with
      | .ok bytes => bytes
      | .error _ => none

/-- The sessions that can come to be, with what stood behind each object once the operation was
done that it came to be in. -/
inductive Traced : Session → (ClassNumber → Option Bytes) → Prop
  | start (files : FileTree) : Traced (start files) fun _ => none
  | step {session : Session} {origin : ClassNumber → Option Bytes} (operation : Operation) :
      Traced session origin →
      Traced (session.step operation).2 fun number =>
        if number < session.objects.size then origin number
        else (session.step operation).2.bytesBehind number
  | refile {session : Session} {origin : ClassNumber → Option Bytes} (files : FileTree) :
      Traced session origin → Traced { session with files } origin

theorem Traced.reachable {session : Session} {origin : ClassNumber → Option Bytes}
    (traced : session.Traced origin) : session.Reachable := by
  induction traced with
  | start files => exact .start files
  | step operation _ ih => exact .step operation ih
  | refile files _ ih => exact .refile files ih

theorem Reachable.exists_traced {session : Session} (reachable : session.Reachable) :
    ∃ origin, session.Traced origin := by
  induction reachable with
  | start files => exact ⟨_, .start files⟩
  | step operation _ ih =>
      obtain ⟨_, traced⟩ := ih
      exact ⟨_, .step operation traced⟩
  | refile files _ ih =>
      obtain ⟨origin, traced⟩ := ih
      exact ⟨origin, .refile files traced⟩

theorem bytesBehind_of_readsBack {session : Session} {number : ClassNumber}
    (reads : session.catalog.ReadsBack session.files number) :
    ∃ object bytes pool, session.objects[number]? = some object ∧
      session.bytesBehind number = some bytes ∧
      ClassFile.parse bytes object.file.own object.file.source = .ok (object.file, pool) := by
  obtain ⟨object, entry, bytes, pool, there, entered, behind, parsed, _⟩ := reads
  have readable : session.registry.readClassOf session.files object.file = .ok (some bytes) :=
    (Registry.readClassOf_eq_ok_iff object.file bytes).mpr ⟨entry, entered, behind⟩
  refine ⟨object, bytes, pool, there, ?_, parsed⟩
  have found : session.objects[number]? = some object := there
  rw [bytesBehind, found]
  dsimp only
  rw [readable]

theorem readClassOf_of_bytesBehind {session : Session} {number : ClassNumber}
    {object : ClassObject} {bytes : Bytes} (there : session.objects[number]? = some object)
    (behind : session.bytesBehind number = some bytes) :
    session.registry.readClassOf session.files object.file = .ok (some bytes) := by
  rw [bytesBehind, there] at behind
  dsimp only at behind
  split at behind
  · rename_i found read
    rw [read, behind]
  · cases behind

/-- A class in the current registry is in one that there is. -/
theorem registry_there {session : Session} {name : String} {number : ClassNumber}
    (entered : session.registry.classes[name]? = some number) :
    session.registries[session.current]? = some session.registry := by
  by_cases inside : session.current < session.registries.size
  · exact getElem?_current inside
  · have none : (Registry.empty none).classes[name]? = none := Std.ExtTreeMap.getElem?_empty
    rw [registry_eq_empty (by omega), none] at entered
    cases entered

theorem catalog_setCatalog {session : Session} {registry : Registry}
    (there : session.registries[session.current]? = some registry) (catalog : Catalog) :
    (session.setCatalog catalog).catalog = catalog := by
  have inside := (Array.getElem?_eq_some_iff.mp there).1
  change (⟨(session.setCatalog catalog).registry, catalog.objects⟩ : Catalog) = catalog
  rw [registry_setCatalog catalog inside]

end Session

theorem Catalog.reload_classes_new {catalog : Catalog} (kept : catalog.WellKept)
    (files : FileTree) (name : String) (number : Nat)
    (entered : (Scan.left (Scan.reload files catalog)).registry.classes[name]? = some number) :
    catalog.registry.classes[name]? = some number ∨
      (catalog.objects.size ≤ number ∧
        (Scan.left (Scan.reload files catalog)).ReadsBack files number) := by
  rcases reload_left files catalog with same | ⟨reread, ran, swapped⟩
  · rw [same] at entered
    exact Or.inl entered
  · rw [swapped] at entered ⊢
    obtain ⟨_, _, gathers⟩ := (Registry.rereadAll_eq_ok_iff _ reread kept.nodup_oldClasses).mp ran
    obtain ⟨behind, object, there, found⟩ := swap_classes catalog reread name number entered
    refine Or.inr ⟨behind, ?_⟩
    rcases (gathers name object).mp found with ⟨old, _, rereads, _⟩ | none
    · obtain ⟨owned, sourced⟩ := rereads.origin
      obtain ⟨entry, bytes, pool, sourceEntered, read, parsed, pooled⟩ := rereads
      refine ⟨object, entry, bytes, pool, there, ?_, read, ?_, pooled⟩
      · rw [sourced]
        exact sourceEntered
      · rw [owned, sourced]
        exact parsed
    · rw [Std.ExtTreeMap.getElem?_empty] at none
      cases none

namespace Session

/-- A class of the current registry after an operation on its catalog is one that was there, or a
new object, which its source now reads as. -/
theorem setCatalog_classes_new {session : Session} {catalog : Catalog} {files : FileTree}
    (new : ∀ (name : String) (classNumber : Nat),
      catalog.registry.classes[name]? = some classNumber →
      session.registry.classes[name]? = some classNumber ∨
        (session.objects.size ≤ classNumber ∧ catalog.ReadsBack files classNumber))
    {number : Nat} {after : Registry}
    (there : (session.setCatalog catalog).registries[number]? = some after) {name : String}
    {classNumber : Nat} (entered : after.classes[name]? = some classNumber) :
    (∃ registry, session.registries[number]? = some registry ∧
      registry.classes[name]? = some classNumber) ∨
    (number = session.current ∧ session.objects.size ≤ classNumber ∧
      (session.setCatalog catalog).catalog.ReadsBack files classNumber) := by
  rcases getElem?_setRegistry there with ⟨current, same, old⟩ | ⟨_, old⟩
  · rw [same] at entered
    have placed := old
    rw [current] at placed
    rw [catalog_setCatalog placed]
    rcases new name classNumber entered with known | fresh
    · exact Or.inl ⟨session.registry, old, known⟩
    · exact Or.inr ⟨current, fresh⟩
  · exact Or.inl ⟨after, old, entered⟩

theorem Passes.classes_new {session later : Session} {operation : Operation}
    (passes : session.Passes operation later) (kept : session.WellKept) {number : Nat}
    {after : Registry} (there : later.registries[number]? = some after) {name : String}
    {classNumber : Nat} (entered : after.classes[name]? = some classNumber) :
    (∃ registry, session.registries[number]? = some registry ∧
      registry.classes[name]? = some classNumber) ∨
    (number = later.current ∧ session.objects.size ≤ classNumber ∧
      later.catalog.ReadsBack later.files classNumber) := by
  cases passes with
  | keeps registries objects =>
      rw [registries] at there
      exact Or.inl ⟨after, there, entered⟩
  | makes walker registries objects =>
      rw [registries, Array.getElem?_push] at there
      split at there
      · have made := Option.some.inj there
        rw [← made] at entered
        have none : (Registry.empty walker).classes[name]? = none := Std.ExtTreeMap.getElem?_empty
        rw [none] at entered
        cases entered
      · exact Or.inl ⟨after, there, entered⟩
  | closes archives keeps =>
      rcases getElem?_setRegistry there with ⟨_, same, old⟩ | ⟨_, old⟩
      · rw [same] at entered
        exact Or.inl ⟨session.registry, old, entered⟩
      · exact Or.inl ⟨after, old, entered⟩
  | scans path own =>
      have grown := Scan.growing_scan session.files path own session.catalog kept.catalog
      exact setCatalog_classes_new (Catalog.Grows.classes_new grown kept.catalog) there entered
  | reloads =>
      exact setCatalog_classes_new (Catalog.reload_classes_new kept.catalog session.files) there
        entered

/-- Objects are never lost, and no operation changes the class of one. -/
theorem Passes.objects {session later : Session} {operation : Operation}
    (passes : session.Passes operation later) (kept : session.WellKept) (number : Nat)
    (object : ClassObject) (there : session.objects[number]? = some object) :
    ∃ after, later.objects[number]? = some after ∧ after.file = object.file := by
  cases passes with
  | keeps registries objects => exact objects.2 number object there
  | makes walker registries objects => exact ⟨object, objects ▸ there, rfl⟩
  | closes archives keeps => exact ⟨object, there, rfl⟩
  | scans path own =>
      have grown := Scan.growing_scan session.files path own session.catalog kept.catalog
      exact ⟨object, (Catalog.Grows.keeps grown).objects number object there, rfl⟩
  | reloads =>
      exact ⟨object, Catalog.reload_objects session.files session.catalog number object there, rfl⟩

/-- The recorded bytes of a registered class are those that it was parsed from. -/
theorem Traced.parsed {session : Session} {origin : ClassNumber → Option Bytes}
    (traced : session.Traced origin) (number : Nat) (registry : Registry) (name : String)
    (classNumber : Nat) (there : session.registries[number]? = some registry)
    (entered : registry.classes[name]? = some classNumber) :
    ∃ object bytes pool, session.objects[classNumber]? = some object ∧
      origin classNumber = some bytes ∧
      ClassFile.parse bytes object.file.own object.file.source = .ok (object.file, pool) := by
  induction traced generalizing number registry with
  | start files =>
      change (#[] : Array Registry)[number]? = some registry at there
      simp at there
  | @step session origin operation traced ih =>
      have kept := traced.reachable.wellKept
      have passes := session.step_passes operation
      rcases passes.classes_new kept there entered with
        ⟨old, oldThere, oldEntered⟩ | ⟨_, behind, reads⟩
      · obtain ⟨object, bytes, pool, objectThere, recorded, parsed⟩ :=
          ih number old oldThere oldEntered
        obtain ⟨after, afterThere, same⟩ := passes.objects kept classNumber object objectThere
        have inside : classNumber < session.objects.size :=
          (Array.getElem?_eq_some_iff.mp objectThere).1
        refine ⟨after, bytes, pool, afterThere, ?_, same ▸ parsed⟩
        dsimp only
        rw [if_pos inside]
        exact recorded
      · obtain ⟨object, bytes, pool, objectThere, recorded, parsed⟩ :=
          bytesBehind_of_readsBack reads
        refine ⟨object, bytes, pool, objectThere, ?_, parsed⟩
        dsimp only
        rw [if_neg (Nat.not_lt_of_le behind)]
        exact recorded
  | refile files _ ih => exact ih number registry there entered

/-- Classes behind which there still is what was recorded are read again as they were. -/
theorem Traced.rereads_same {session : Session} {origin : ClassNumber → Option Bytes}
    (traced : session.Traced origin)
    (unchanged : ∀ (name : String) (number : ClassNumber),
      session.registry.classes[name]? = some number → session.bytesBehind number = origin number)
    (name : String) (old : ClassObject) (found : session.catalog.class? name = some old) :
    ∃ fresh, session.registry.Rereads session.files old.file fresh ∧ fresh.file = old.file := by
  obtain ⟨number, entered, there⟩ := (session.catalog.class?_eq_some_iff name old).mp found
  change session.registry.classes[name]? = some number at entered
  change session.objects[number]? = some old at there
  have current := registry_there entered
  obtain ⟨object, bytes, pool, objectThere, recorded, parsed⟩ :=
    traced.parsed session.current session.registry name number current entered
  have same : object = old := Option.some.inj (objectThere.symm.trans there)
  subst same
  have behind : session.bytesBehind number = some bytes :=
    (unchanged name number entered).trans recorded
  obtain ⟨entry, sourceEntered, read⟩ := (Registry.readClassOf_eq_ok_iff object.file bytes).mp
    (readClassOf_of_bytesBehind there behind)
  exact ⟨⟨object.file, some pool⟩, ⟨entry, bytes, pool, sourceEntered, read, parsed, rfl⟩, rfl⟩

/-- Reloading, in any session that can come to be: it succeeds exactly when each class can be read
again and no two get one name; then each has been replaced by what its source is now read as, and
otherwise nothing has changed; neither depends on the order in which the classes are taken. The
bytes that each class came from are known, and if they still stand behind all of them, the classes
are what they were. -/
theorem reload_transaction {session : Session} (reachable : session.Reachable) :
    ((∃ after, Scan.reload session.files session.catalog = .ok () after) ↔
      session.catalog.Reloadable session.files) ∧
    (∀ after, Scan.reload session.files session.catalog = .ok () after →
      session.catalog.Reloaded session.files after) ∧
    (∀ error after, Scan.reload session.files session.catalog = .error error after →
      after = session.catalog) ∧
    (∀ order : List ClassFile, order.Perm session.catalog.oldClasses →
      (∀ after, Scan.reloadInOrder session.files order session.catalog = .ok () after ↔
        Scan.reload session.files session.catalog = .ok () after) ∧
      ∀ error after, Scan.reloadInOrder session.files order session.catalog = .error error after →
        after = session.catalog) ∧
    (∃ origin, session.Traced origin) ∧
    ∀ origin, session.Traced origin →
      (∀ (name : String) (number : ClassNumber), session.registry.classes[name]? = some number →
        session.bytesBehind number = origin number) →
      ∃ after, Scan.reload session.files session.catalog = .ok () after ∧ ∀ name : String,
        (after.class? name).map ClassObject.file =
          (session.catalog.class? name).map ClassObject.file := by
  have kept := reachable.wellKept.catalog
  refine ⟨Scan.reload_succeeds_iff kept, ?_, ?_, ?_, reachable.exists_traced, ?_⟩
  · intro after ran
    exact Scan.reloaded_of_reload kept ran
  · intro error after ran
    rw [Scan.reload_eq] at ran
    exact Scan.eq_of_reloadInOrder_error ran
  · intro order rearranged
    constructor
    · intro after
      exact Scan.reloadInOrder_eq_ok_iff_reload kept rearranged
    · intro error after ran
      exact Scan.eq_of_reloadInOrder_error ran
  · intro origin traced unchanged
    exact Scan.reload_unchanged kept (traced.rereads_same unchanged)

/-- The specimen is reloaded as it was scanned. -/
theorem reload_specimen : specimen.Reachable ∧ ∃ after file,
    Scan.reload specimen.files specimen.catalog = .ok () after ∧
      specimen.catalog.Reloaded specimen.files after ∧
      (after.class? "A").map ClassObject.file = some file ∧ file.name = "A" := by
  obtain ⟨registry, object, there, entered, objectThere, named⟩ := specimen_registered
  obtain ⟨_, reloaded, _, _, _, unchanged⟩ := reload_transaction specimen_reachable
  have current : specimen.current = 0 := by
    change (Session.runScan _ _).2.current = 0
    rw [runScan_eq]
    rfl
  have registered : specimen.catalog.class? "A" = some object := by
    have known : specimen.registry = registry := by
      rw [Session.registry, current, Array.getD_eq_getD_getElem?, there]
      rfl
    rw [Catalog.class?_eq_some_iff]
    refine ⟨0, ?_, objectThere⟩
    change specimen.registry.classes["A"]? = some 0
    rw [known, entered]
  obtain ⟨after, ran, same⟩ := unchanged _ (.step _ (.step _ (.start _))) fun _ _ _ => rfl
  refine ⟨specimen_reachable, after, object.file, ran, reloaded after ran, ?_, named⟩
  rw [same "A", registered]
  rfl

end Session

end Classpath
