import Classpath.Proofs.Session.Handles
import Classpath.Proofs.Session.Residency

/-!
Reading classes back. Main statement: as long as no file changes and its registry is not closed, a
class is read as the same bytes in every way that there is, and these parse into what it is. What is
not registered is read as nothing.
-/

set_option autoImplicit false

namespace Classpath

/-- What an entry can be read as, its stream gives. -/
theorem Entry.drain_of_read {files : FileTree} {archives : Array Archive} {entry : Entry}
    {bytes : Bytes} (read : entry.read files archives = .ok bytes) :
    entry.drain files archives = .ok bytes := by
  cases entry with
  | member path archive index name => exact read
  | file path =>
      simp only [Entry.read, FileTree.read] at read
      unfold drain
      dsimp only
      split at read
      · rename_i content found
        rw [found]
        exact read
      · cases read
      · cases read

namespace Registry

/-- What one registry reads as the bytes of a class, the other does. -/
def ReadsOn (files : FileTree) (before after : Registry) : Prop :=
  ∀ (cls : ClassFile) (bytes : Bytes), before.readClassOf files cls = .ok (some bytes) →
    after.readClassOf files cls = .ok (some bytes)

theorem openResource_of_readResource {registry : Registry} {files : FileTree} {key : String}
    {bytes : Bytes} (read : registry.readResource files key = .ok (some bytes)) :
    registry.openResource files key = .ok (some bytes) := by
  unfold readResource at read
  unfold openResource
  cases entered : registry.entries[key]? with
  | none =>
      rw [entered] at read
      cases read
  | some entry =>
      rw [entered] at read
      dsimp only at read ⊢
      cases behind : entry.read files registry.archives with
      | error error =>
          rw [behind] at read
          cases read
      | ok found =>
          rw [behind] at read
          rw [Entry.drain_of_read behind]
          exact read

/-- The bytes are read as the class of an object, and parse into it, with its pool unless that has
been released. -/
structure Backs (registry : Registry) (files : FileTree) (object : ClassObject) (bytes : Bytes) :
    Prop where
  served : registry.readClassOf files object.file = .ok (some bytes)
  parsed : ∃ pool, ClassFile.parse bytes object.file.own object.file.source =
    .ok (object.file, pool) ∧ (object.pool = some pool ∨ object.pool = none)

end Registry

theorem Catalog.Grows.readsOn {files : FileTree} {own : Bool} {before after : Catalog}
    (grows : Grows files own before after) (kept : before.WellKept) :
    before.registry.ReadsOn files after.registry := by
  intro cls bytes served
  rw [Registry.readClassOf_eq_ok_iff] at served ⊢
  obtain ⟨entry, entered, behind⟩ := served
  refine ⟨entry, (Grows.keeps grows).entries _ entry entered, ?_⟩
  rw [Grows.read grows kept entered, behind]

/-- Reloading changes neither entries nor archives. -/
theorem Catalog.reload_readsOn (files : FileTree) (catalog : Catalog) :
    catalog.registry.ReadsOn files (Scan.left (Scan.reload files catalog)).registry := by
  intro cls bytes served
  rcases reload_left files catalog with same | ⟨reread, _, swapped⟩
  · rw [same]
    exact served
  · rw [swapped]
    exact served

theorem Catalog.ReadsBack.exists_backs {files : FileTree} {catalog : Catalog}
    {number : ClassNumber} (reads : catalog.ReadsBack files number) :
    ∃ object bytes, catalog.objects[number]? = some object ∧
      catalog.registry.Backs files object bytes := by
  obtain ⟨object, entry, bytes, pool, there, entered, behind, parsed, kept⟩ := reads
  have served := (Registry.readClassOf_eq_ok_iff object.file bytes).mpr ⟨entry, entered, behind⟩
  exact ⟨object, bytes, there, served, pool, parsed, Or.inl kept⟩

namespace Session

/-- An operation that parts no class from what stands behind it: it closes nothing, leaves all files
as they are, and loads no pool of a class through a registry that the class is not in. -/
structure Calm (session : Session) (operation : Operation) : Prop where
  opens : operation ≠ .close
  files : (session.step operation).2.files = session.files
  loads : ∀ (target : Target) (classNumber : ClassNumber), operation = .poolOrLoad target →
    session.resolve target = some classNumber →
    ∀ (number : Nat) (registry : Registry) (name : String), number ≠ session.current →
      session.registries[number]? = some registry → registry.classes[name]? ≠ some classNumber

/-- The sessions that can come to be, with how many objects there were when each registry was last
closed or something else last happened that was not calm. -/
inductive Undisturbed : Session → (Nat → Nat) → Prop
  | start (files : FileTree) : Undisturbed (start files) fun _ => 0
  | calm {session : Session} {floor : Nat → Nat} (operation : Operation)
      (calm : session.Calm operation) :
      Undisturbed session floor → Undisturbed (session.step operation).2 floor
  | close {session : Session} {floor : Nat → Nat} :
      Undisturbed session floor → Undisturbed (session.step .close).2
        (Function.update floor session.current session.objects.size)
  | other {session : Session} {floor : Nat → Nat} (operation : Operation)
      (opens : operation ≠ .close) (stirring : ¬ session.Calm operation) :
      Undisturbed session floor →
      Undisturbed (session.step operation).2 fun _ => session.objects.size
  | refile {session : Session} {floor : Nat → Nat} (files : FileTree) :
      Undisturbed session floor → Undisturbed { session with files } fun _ => session.objects.size

theorem Undisturbed.reachable {session : Session} {floor : Nat → Nat}
    (undisturbed : session.Undisturbed floor) : session.Reachable := by
  induction undisturbed with
  | start files => exact .start files
  | calm operation _ _ ih => exact .step operation ih
  | close _ ih => exact .step .close ih
  | other operation _ _ _ ih => exact .step operation ih
  | refile files _ ih => exact .refile files ih

theorem Reachable.exists_undisturbed {session : Session} (reachable : session.Reachable) :
    ∃ floor, session.Undisturbed floor := by
  induction reachable with
  | start files => exact ⟨_, .start files⟩
  | @step session operation _ ih =>
      obtain ⟨floor, undisturbed⟩ := ih
      by_cases closes : operation = .close
      · rw [closes]
        exact ⟨_, undisturbed.close⟩
      · by_cases calm : session.Calm operation
        · exact ⟨floor, undisturbed.calm operation calm⟩
        · exact ⟨_, undisturbed.other operation closes calm⟩
  | refile files _ ih =>
      obtain ⟨floor, undisturbed⟩ := ih
      exact ⟨_, undisturbed.refile files⟩

/-- Behind each class with a number from the floor of its registry on stand bytes that it is. -/
def Backed (floor : Nat → Nat) (session : Session) : Prop :=
  ∀ (number : Nat) (registry : Registry) (name : String) (classNumber : Nat),
    session.registries[number]? = some registry → registry.classes[name]? = some classNumber →
    floor number ≤ classNumber → ∃ object bytes,
      session.objects[classNumber]? = some object ∧ registry.Backs session.files object bytes

section Kept

variable {session : Session} {operation : Operation}

theorem Passes.readsOn {later : Session} (passes : session.Passes operation later)
    (opens : operation ≠ .close) (kept : session.WellKept) {number : Nat} {registry after : Registry}
    (there : session.registries[number]? = some registry)
    (afterThere : later.registries[number]? = some after) :
    registry.ReadsOn session.files after := by
  have same (found : Registry) : found.ReadsOn session.files found := fun _ _ served => served
  have one {registries : Array Registry} {found : Registry}
      (placed : registries[number]? = some found) (other : registries[number]? = some after)
      (related : registry.ReadsOn session.files found) : registry.ReadsOn session.files after := by
    rw [← Option.some.inj (placed.symm.trans other)]
    exact related
  cases passes with
  | keeps registries objects =>
      rw [registries] at afterThere
      exact one there afterThere (same registry)
  | makes walker registries objects =>
      rw [registries] at afterThere
      exact one (getElem?_push_kept there) afterThere (same registry)
  | closes archives keeps => exact absurd rfl opens
  | scans path own =>
      have grown := Scan.growing_scan session.files path own session.catalog kept.catalog
      obtain ⟨found, placed, related⟩ := setRegistry_related (Registry.ReadsOn session.files) same
        (Catalog.Grows.readsOn grown kept.catalog) there
      exact one placed afterThere related
  | reloads =>
      obtain ⟨found, placed, related⟩ := setRegistry_related (Registry.ReadsOn session.files) same
        (Catalog.reload_readsOn session.files session.catalog) there
      exact one placed afterThere related

/-- By what is asked of the object: it may be released, and what is loaded is its own pool. -/
theorem Calm.backs_object (calm : session.Calm operation) (kept : session.WellKept) {number : Nat}
    {registry : Registry} {name : String} {classNumber : ClassNumber} {object : ClassObject}
    {bytes : Bytes} (there : session.registries[number]? = some registry)
    (entered : registry.classes[name]? = some classNumber)
    (objectThere : session.objects[classNumber]? = some object)
    (backs : registry.Backs session.files object bytes) :
    ∃ after, (session.step operation).2.objects[classNumber]? = some after ∧
      after.file = object.file ∧ registry.Backs session.files after bytes := by
  obtain ⟨cls, resident⟩ := object
  obtain ⟨pool, parsed, known⟩ := backs.parsed
  by_cases released : session.AsksOf classNumber .releasePool (.asks operation)
  · exact ⟨⟨cls, none⟩, occur_release objectThere released, rfl, backs.served, pool, parsed,
      Or.inr rfl⟩
  · by_cases loaded : session.AsksOf classNumber .poolOrLoad (.asks operation)
    · have changed := occur_load objectThere loaded
      obtain ⟨target, asked, told⟩ := loaded
      have current : number = session.current := by
        apply Decidable.byContradiction
        intro other
        exact calm.loads target classNumber (Event.asks.inj asked) told number registry name other
          there entered
      subst current
      have same : registry = session.registry :=
        Option.some.inj (there.symm.trans (getElem?_current (Array.getElem?_eq_some_iff.mp there).1))
      rw [same] at backs
      rw [ClassObject.poolOrLoad_of_served parsed backs.served known] at changed
      exact ⟨⟨cls, some pool⟩, changed, rfl, same ▸ backs.served, pool, parsed, Or.inl rfl⟩
    · exact ⟨⟨cls, resident⟩, step_keeps_object kept objectThere operation released loaded, rfl,
        backs⟩

theorem backs_of_new {later : Session} {number classNumber : Nat} {after : Registry}
    (there : later.registries[number]? = some after) (current : number = later.current)
    (reads : later.catalog.ReadsBack later.files classNumber) : ∃ object bytes,
      later.objects[classNumber]? = some object ∧ after.Backs later.files object bytes := by
  subst current
  have same : after = later.registry :=
    Option.some.inj (there.symm.trans (getElem?_current (Array.getElem?_eq_some_iff.mp there).1))
  rw [same]
  exact reads.exists_backs

end Kept

/-- What comes to be after all there was is what stands behind it. -/
theorem backed_of_new {session : Session} (kept : session.WellKept) (operation : Operation) :
    (session.step operation).2.Backed fun _ => session.objects.size := by
  intro number after name classNumber there entered lower
  rcases (session.step_passes operation).classes_new kept there entered with
    ⟨registry, oldThere, oldEntered⟩ | ⟨current, _, reads⟩
  · have inside := kept.number_lt oldThere oldEntered
    exact absurd inside (Nat.not_lt_of_le lower)
  · exact backs_of_new there current reads

theorem Undisturbed.backed {session : Session} {floor : Nat → Nat}
    (undisturbed : session.Undisturbed floor) : session.Backed floor := by
  induction undisturbed with
  | start files =>
      intro number registry name classNumber there
      change (#[] : Array Registry)[number]? = some registry at there
      simp at there
  | @calm session floor operation calm undisturbed ih =>
      intro number after name classNumber there entered lower
      have kept := undisturbed.reachable.wellKept
      have passes := session.step_passes operation
      rcases passes.classes_new kept there entered with
        ⟨registry, oldThere, oldEntered⟩ | ⟨current, _, reads⟩
      · obtain ⟨object, bytes, objectThere, backs⟩ :=
          ih number registry name classNumber oldThere oldEntered lower
        obtain ⟨changed, changedThere, _, still⟩ :=
          calm.backs_object kept oldThere oldEntered objectThere backs
        have readsOn := passes.readsOn calm.opens kept oldThere there
        refine ⟨changed, bytes, changedThere, ?_, still.parsed⟩
        rw [calm.files]
        exact readsOn _ _ still.served
      · exact backs_of_new there current reads
  | @close session floor undisturbed ih =>
      intro number after name classNumber there entered lower
      rw [step_close] at there ⊢
      rcases getElem?_setRegistry there with ⟨rfl, rfl, old⟩ | ⟨other, old⟩
      · rw [Function.update_self] at lower
        have inside := undisturbed.reachable.wellKept.number_lt old entered
        exact absurd inside (Nat.not_lt_of_le lower)
      · rw [Function.update_of_ne other] at lower
        exact ih number after name classNumber old entered lower
  | other operation _ _ undisturbed _ =>
      exact backed_of_new undisturbed.reachable.wellKept operation
  | @refile session floor files undisturbed _ =>
      intro number registry name classNumber there entered lower
      have inside := undisturbed.reachable.wellKept.number_lt there entered
      exact absurd inside (Nat.not_lt_of_le lower)

/-- An object is read as the bytes by its class's name, by its source, and through each target that
tells it, and these bytes are what it was made of. -/
structure ReadsAlike (session : Session) (number : ClassNumber) (object : ClassObject)
    (bytes : Bytes) : Prop where
  byName : session.step (.readClass object.file.name) = (.bytes (.ok (some bytes)), session)
  resource : session.step (.readResource object.file.source) = (.bytes (.ok (some bytes)), session)
  stream : session.step (.openResource object.file.source) = (.bytes (.ok (some bytes)), session)
  ofClass : ∀ target, session.resolve target = some number →
    session.step (.readClassOf target) = (.bytes (.ok (some bytes)), session)
  ofClassByName : ∀ target, session.resolve target = some number →
    session.step (.readClassByName target) = (.bytes (.ok (some bytes)), session)
  hash : object.file.contentHash = Digest.Sha256.hexDigest bytes
  parsed : ∃ pool, ClassFile.parse bytes object.file.own object.file.source =
    .ok (object.file, pool) ∧ (object.pool = some pool ∨ object.pool = none)

theorem readsAlike_of_backs {session : Session} {number : ClassNumber} {object : ClassObject}
    {bytes : Bytes} (entered : session.registry.classes[object.file.name]? = some number)
    (there : session.objects[number]? = some object)
    (backs : session.registry.Backs session.files object bytes) :
    session.ReadsAlike number object bytes := by
  have served : session.registry.readResource session.files object.file.source =
      .ok (some bytes) := backs.served
  have streamed := Registry.openResource_of_readResource served
  have named : session.registry.readClass session.files session.objects object.file.name =
      .ok (some bytes) := by
    simp only [Registry.readClass, Registry.class?, entered, Option.bind_some, there]
    exact backs.served
  constructor
  · simp only [step, named]
  · simp only [step, served]
  · simp only [step, streamed]
  · intro target told
    simp only [step, asking_eq told there, backs.served]
  · intro target told
    simp only [step, asking_eq told there, named]
  · obtain ⟨pool, parsed, _⟩ := backs.parsed
    exact ClassFile.parse_contentHash parsed
  · exact backs.parsed

section Absent

variable (session : Session)

theorem readResource_absent (key : String) (absent : session.registry.entries[key]? = none) :
    session.registry.readResource session.files key = .ok none := by
  rw [Registry.readResource, absent]

theorem openResource_absent (key : String) (absent : session.registry.entries[key]? = none) :
    session.registry.openResource session.files key = .ok none := by
  rw [Registry.openResource, absent]

theorem readClass_absent (name : String) (absent : session.registry.classes[name]? = none) :
    session.registry.readClass session.files session.objects name = .ok none := by
  rw [Registry.readClass, Registry.class?, absent]
  rfl

end Absent

/-- In any session that can come to be, each class of the current registry that came to be after all
that was not calm is read alike in all ways. In any session at all, what is not registered is read
as nothing. -/
theorem reads_back_alike {session : Session} (reachable : session.Reachable) :
    (∃ floor, session.Undisturbed floor) ∧
    (∀ floor, session.Undisturbed floor → ∀ (name : String) (number : ClassNumber),
      session.registry.classes[name]? = some number → floor session.current ≤ number →
      ∃ object bytes, session.objects[number]? = some object ∧ object.file.name = name ∧
        session.ReadsAlike number object bytes) ∧
    (∀ name, session.registry.classes[name]? = none →
      session.step (.readClass name) = (.bytes (.ok none), session)) ∧
    (∀ key, session.registry.entries[key]? = none →
      session.step (.readResource key) = (.bytes (.ok none), session) ∧
      session.step (.openResource key) = (.bytes (.ok none), session)) ∧
    ∀ target object, session.object? target = some object →
      (session.registry.entries[object.file.source]? = none →
        session.step (.readClassOf target) = (.bytes (.ok none), session)) ∧
      (session.registry.classes[object.file.name]? = none →
        session.step (.readClassByName target) = (.bytes (.ok none), session)) := by
  refine ⟨reachable.exists_undisturbed, ?_, ?_, ?_, ?_⟩
  · intro floor undisturbed name number entered lower
    have current := registry_there entered
    obtain ⟨object, bytes, there, backs⟩ :=
      undisturbed.backed session.current session.registry name number current entered lower
    obtain ⟨known, knownThere, named⟩ :=
      (reachable.wellKept session.current session.registry current).named name number entered
    have same : known = object := Option.some.inj (knownThere.symm.trans there)
    subst same
    subst named
    exact ⟨known, bytes, there, rfl, readsAlike_of_backs entered there backs⟩
  · intro name absent
    simp only [step, session.readClass_absent name absent]
  · intro key absent
    simp only [step, session.readResource_absent key absent,
      session.openResource_absent key absent, and_self]
  · intro target object told
    have asked (answer : ClassObject → Answer) :
        session.asking target answer = (answer object, session) := by
      rw [asking, told]
    constructor
    · intro absent
      have none : session.registry.readClassOf session.files object.file = .ok none :=
        session.readResource_absent _ absent
      simp only [step, asked, none]
    · intro absent
      simp only [step, asked, session.readClass_absent _ absent]

theorem specimen_undisturbed : specimen.Undisturbed fun _ => 0 := by
  refine .calm _ ⟨nofun, ?_, nofun⟩ (.calm _ ⟨nofun, rfl, nofun⟩ (.start _))
  change (Session.runScan _ _).2.files = _
  rw [runScan_eq]
  rfl

/-- The class of the specimen reads back, and nothing stands behind the name of another. -/
theorem reads_back_specimen : specimen.Reachable ∧ (∃ object bytes,
      specimen.objects[0]? = some object ∧ specimen.ReadsAlike 0 object bytes) ∧
    specimen.step (.readClass "B") = (.bytes (.ok none), specimen) := by
  obtain ⟨_, alike, absent, _⟩ := reads_back_alike specimen_reachable
  obtain ⟨object, bytes, there, _, reads⟩ :=
    alike _ specimen_undisturbed "A" 0 specimen_classes (Nat.zero_le 0)
  refine ⟨specimen_reachable, ⟨object, bytes, there, reads⟩, absent "B" ?_⟩
  obtain ⟨cls, _, named, _, scanned⟩ := exists_specimen
  rw [scanned]
  change ((∅ : ClassMap).insert cls.name 0)["B"]? = none
  rw [getElem?_insert_eq_none_iff, named]
  exact ⟨by decide, Std.ExtTreeMap.getElem?_empty⟩

end Session

end Classpath
