import Classpath.Proofs.Session.Passing

/-!
What holds in every session that can come to be, whatever was asked of it and whatever became of
the files in between.
-/

set_option autoImplicit false

namespace Classpath

namespace Catalog

theorem reload_left (files : FileTree) (catalog : Catalog) :
    Scan.left (Scan.reload files catalog) = catalog ∨ ∃ reread,
      catalog.registry.rereadAll files catalog.oldClasses ∅ = .ok reread ∧
        Scan.left (Scan.reload files catalog) = catalog.swap reread := by
  rw [Scan.reload_eq, Scan.reloadInOrder_eq]
  cases catalog.registry.rereadAll files catalog.oldClasses ∅ with
  | error error => exact Or.inl rfl
  | ok reread => exact Or.inr ⟨reread, rfl, rfl⟩

/-- Reloading adds objects and drops none. -/
theorem reload_objects (files : FileTree) (catalog : Catalog) (number : Nat)
    (object : ClassObject) (there : catalog.objects[number]? = some object) :
    (Scan.left (Scan.reload files catalog)).objects[number]? = some object := by
  rcases reload_left files catalog with same | ⟨reread, _, swapped⟩
  · rw [same]
    exact there
  · rw [swapped]
    exact swap_objects catalog reread number object there

theorem reload_entries (files : FileTree) (catalog : Catalog) :
    (Scan.left (Scan.reload files catalog)).registry.entries = catalog.registry.entries := by
  rcases reload_left files catalog with same | ⟨reread, _, swapped⟩
  · rw [same]
  · rw [swapped]
    rfl

theorem WellKept.reload {catalog : Catalog} (kept : catalog.WellKept) (files : FileTree) :
    (Scan.left (Scan.reload files catalog)).WellKept := by
  rcases reload_left files catalog with same | ⟨reread, ran, swapped⟩
  · rw [same]
    exact kept
  · rw [swapped]
    have gathered := (Registry.rereadAll_eq_ok_iff _ reread kept.nodup_oldClasses).mp ran
    exact kept.swap gathered.2.2

end Catalog

namespace Session

/-- The sessions that can come to be. Between operations, the files may become any others. -/
inductive Reachable : Session → Prop
  | start (files : FileTree) : Reachable (start files)
  | step {session : Session} (operation : Operation) :
      Reachable session → Reachable (session.step operation).2
  | refile {session : Session} (files : FileTree) :
      Reachable session → Reachable { session with files }

def WellKept (session : Session) : Prop :=
  ∀ (number : Nat) (registry : Registry), session.registries[number]? = some registry →
    registry.WellKept session.objects

theorem WellKept.catalog {session : Session} (kept : session.WellKept) :
    session.catalog.WellKept := by
  change session.registry.WellKept session.objects
  unfold registry
  rw [Array.getD_eq_getD_getElem?]
  cases there : session.registries[session.current]? with
  | none => exact .empty session.objects none
  | some registry => exact kept session.current registry there

/-- A registered class has the number of an object that there is. -/
theorem WellKept.number_lt {session : Session} (kept : session.WellKept)
    {number : Nat} {registry : Registry} {name : String} {classNumber : ClassNumber}
    (there : session.registries[number]? = some registry)
    (entered : registry.classes[name]? = some classNumber) :
    classNumber < session.objects.size := by
  obtain ⟨object, objectThere, _⟩ := (kept number registry there).named name classNumber entered
  exact (Array.getElem?_eq_some_iff.mp objectThere).1

/-- Before there is a current registry, an empty one stands for it. -/
theorem registry_eq_empty {session : Session}
    (missing : session.registries.size ≤ session.current) :
    session.registry = Registry.empty none := by
  rw [registry, Array.getD_eq_getD_getElem?, Array.getElem?_eq_none missing]
  rfl

theorem getElem?_current {session : Session} (inside : session.current < session.registries.size) :
    session.registries[session.current]? = some session.registry := by
  rw [registry, Array.getD_eq_getD_getElem?, Array.getElem?_eq_getElem inside]
  rfl

theorem registry_setRegistry {session : Session} (registry : Registry)
    (inside : session.current < session.registries.size) :
    (session.setRegistry registry).registry = registry := by
  change (session.registries.setIfInBounds session.current registry).getD session.current
    (Registry.empty none) = registry
  rw [Array.getD_eq_getD_getElem?, Array.getElem?_setIfInBounds_self_of_lt inside]
  rfl

theorem registry_setCatalog {session : Session} (catalog : Catalog)
    (inside : session.current < session.registries.size) :
    (session.setCatalog catalog).registry = catalog.registry :=
  registry_setRegistry catalog.registry inside

/-- A registry that is set stands where the current one stood, if there is one. -/
theorem getElem?_setRegistry {session : Session} {registry found : Registry} {number : Nat}
    (there : (session.setRegistry registry).registries[number]? = some found) :
    (number = session.current ∧ found = registry ∧
      session.registries[number]? = some session.registry) ∨
    (number ≠ session.current ∧ session.registries[number]? = some found) := by
  change (session.registries.setIfInBounds session.current registry)[number]? = some found at there
  rw [Array.getElem?_setIfInBounds] at there
  split at there
  · rename_i same
    split at there
    · rename_i inside
      subst same
      exact Or.inl ⟨rfl, (Option.some.inj there).symm, getElem?_current inside⟩
    · cases there
  · rename_i other
    exact Or.inr ⟨fun same => other same.symm, there⟩

/-- What becomes of the current registry and what of the others. -/
theorem WellKept.setCatalog {session : Session} (kept : session.WellKept) {catalog : Catalog}
    (catalogKept : catalog.WellKept)
    (objects : ∀ (number : ClassNumber) (object : ClassObject),
      session.objects[number]? = some object → catalog.objects[number]? = some object) :
    (session.setCatalog catalog).WellKept := by
  intro number found there
  rcases getElem?_setRegistry there with ⟨_, same, _⟩ | ⟨_, old⟩
  · rw [same]
    exact catalogKept
  · apply (kept number found old).mono
    intro classNumber object objectThere
    exact ⟨object, objects classNumber object objectThere, rfl⟩

theorem Passes.wellKept {session later : Session} {operation : Operation}
    (passes : session.Passes operation later) (kept : session.WellKept) : later.WellKept := by
  cases passes with
  | keeps registries objects =>
      intro number registry there
      rw [registries] at there
      exact (kept number registry there).mono objects.2
  | makes walker registries objects =>
      intro number registry there
      rw [registries, Array.getElem?_push] at there
      rw [objects]
      split at there
      · have made := Option.some.inj there
        rw [← made]
        exact .empty session.objects walker
      · exact kept number registry there
  | closes archives keeps =>
      intro number found there
      rcases getElem?_setRegistry there with ⟨_, same, _⟩ | ⟨_, old⟩
      · rw [same]
        exact Registry.WellKept.withArchives kept.catalog keeps
      · exact kept number found old
  | scans path own =>
      have grown := Scan.growing_scan session.files path own session.catalog kept.catalog
      exact kept.setCatalog (Catalog.Grows.wellKept grown kept.catalog)
        (Catalog.Grows.keeps grown).objects
  | reloads =>
      exact kept.setCatalog (kept.catalog.reload session.files)
        (Catalog.reload_objects session.files session.catalog)

theorem Reachable.wellKept {session : Session} (reachable : session.Reachable) :
    session.WellKept := by
  induction reachable with
  | start files =>
      intro number registry there
      change (#[] : Array Registry)[number]? = some registry at there
      simp at there
  | step operation _ ih => exact (step_passes _ operation).wellKept ih
  | refile files _ ih => exact ih

/-- A relation that registries have to themselves, and the current one to another, is one that all
have to what stands in their place when the other is set. -/
theorem setRegistry_related {session : Session} {registry : Registry}
    (related : Registry → Registry → Prop) (same : ∀ found, related found found)
    (changed : related session.registry registry) {number : Nat} {found : Registry}
    (there : session.registries[number]? = some found) :
    ∃ after, (session.setRegistry registry).registries[number]? = some after ∧
      related found after := by
  have inside := (Array.getElem?_eq_some_iff.mp there).1
  change ∃ after, (session.registries.setIfInBounds session.current registry)[number]? =
    some after ∧ _
  by_cases current : session.current = number
  · subst current
    have known : session.registry = found :=
      Option.some.inj ((getElem?_current inside).symm.trans there)
    rw [Array.getElem?_setIfInBounds_self_of_lt inside]
    exact ⟨registry, rfl, known ▸ changed⟩
  · rw [Array.getElem?_setIfInBounds_ne current]
    exact ⟨found, there, same found⟩

def KeepsEntries (before after : Registry) : Prop :=
  ∀ (key : String) (entry : Entry), before.entries[key]? = some entry →
    after.entries[key]? = some entry

def KeepsClasses (before after : Registry) : Prop :=
  ∀ (name : String) (number : ClassNumber), before.classes[name]? = some number →
    after.classes[name]? = some number

/-- What has been registered stays registered, and stays what it was. -/
theorem Passes.keepsEntries {session later : Session} {operation : Operation}
    (passes : session.Passes operation later) (kept : session.WellKept) {number : Nat}
    {registry : Registry} (there : session.registries[number]? = some registry) :
    ∃ after, later.registries[number]? = some after ∧ KeepsEntries registry after := by
  have same (found : Registry) : KeepsEntries found found := fun _ _ entered => entered
  cases passes with
  | keeps registries objects =>
      rw [registries]
      exact ⟨registry, there, same registry⟩
  | makes walker registries objects =>
      rw [registries]
      exact ⟨registry, getElem?_push_kept there, same registry⟩
  | closes archives keeps =>
      have changed : KeepsEntries session.registry { session.registry with archives } :=
        same session.registry
      exact setRegistry_related KeepsEntries same changed there
  | scans path own =>
      have grown := Scan.growing_scan session.files path own session.catalog kept.catalog
      exact setRegistry_related KeepsEntries same (Catalog.Grows.keeps grown).entries there
  | reloads =>
      have unchanged := Catalog.reload_entries session.files session.catalog
      apply setRegistry_related KeepsEntries same _ there
      intro key entry entered
      rw [unchanged]
      exact entered

/-- A scan leaves every class with its name and its object, even one that fails. -/
theorem scan_keepsClasses {session : Session} (kept : session.WellKept) (path : Path.Text)
    (own : Bool) {number : Nat} {registry : Registry}
    (there : session.registries[number]? = some registry) :
    ∃ after, (session.step (.scan path own)).2.registries[number]? = some after ∧
      KeepsEntries registry after ∧ KeepsClasses registry after ∧
      ∀ (classNumber : ClassNumber) (object : ClassObject),
        session.objects[classNumber]? = some object →
          (session.step (.scan path own)).2.objects[classNumber]? = some object := by
  have grown := Scan.growing_scan session.files path own session.catalog kept.catalog
  have keeps := Catalog.Grows.keeps grown
  change ∃ after, (session.runScan (Scan.scan session.files path own)).2.registries[number]? =
    some after ∧ _ ∧ _ ∧ ∀ classNumber object, _ →
      (session.runScan (Scan.scan session.files path own)).2.objects[classNumber]? = some object
  rw [runScan_eq]
  obtain ⟨after, placed, entries, classes⟩ :=
    setRegistry_related (fun before after => KeepsEntries before after ∧ KeepsClasses before after)
      (fun _ => ⟨fun _ _ entered => entered, fun _ _ entered => entered⟩)
      ⟨keeps.entries, keeps.classes⟩ there
  exact ⟨after, placed, entries, classes, keeps.objects⟩

/-- Every registry of every session is well kept; no operation loses or changes what is registered
under a key, and no scan does so to a class. -/
theorem registries_kept {session : Session} (reachable : session.Reachable) :
    (∀ (number : Nat) (registry : Registry), session.registries[number]? = some registry →
      registry.WellKept session.objects) ∧
    (∀ (operation : Operation) (number : Nat) (registry : Registry),
      session.registries[number]? = some registry →
      ∃ after, (session.step operation).2.registries[number]? = some after ∧
        KeepsEntries registry after) ∧
    ∀ (path : Path.Text) (own : Bool) (number : Nat) (registry : Registry),
      session.registries[number]? = some registry →
      ∃ after, (session.step (.scan path own)).2.registries[number]? = some after ∧
        KeepsEntries registry after ∧ KeepsClasses registry after ∧
        ∀ (classNumber : ClassNumber) (object : ClassObject),
          session.objects[classNumber]? = some object →
            (session.step (.scan path own)).2.objects[classNumber]? = some object := by
  have kept := reachable.wellKept
  refine ⟨kept, ?_, ?_⟩
  · intro operation number registry there
    exact (session.step_passes operation).keepsEntries kept there
  · intro path own number registry there
    exact scan_keepsClasses kept path own there

/-- A session that has scanned the specimen. -/
def specimen : Session :=
  (((start RawClass.specimenFiles).step (.newRegistry true)).2.step (.scan "A.class" true)).2

theorem specimen_reachable : specimen.Reachable :=
  .step _ (.step _ (.start _))

/-- A session that has scanned one class file. -/
def scanned (raw : RawClass) : Session :=
  (((start (RawClass.filesWith raw.encode)).step (.newRegistry true)).2.step
    (.scan "A.class" true)).2

theorem scanned_reachable (raw : RawClass) : (scanned raw).Reachable :=
  .step _ (.step _ (.start _))

/-- What a session is once a class file has been scanned in it. -/
theorem exists_scanned {raw : RawClass} (resolves : raw.Resolvable) {name : String}
    (named : raw.pool.className? raw.thisClass = some name) : ∃ cls : ClassFile,
    ClassFile.parse raw.encode true "A.class" = .ok (cls, raw.pool.pool) ∧ cls.name = name ∧
      cls.source = "A.class" ∧
    scanned raw = ((start (RawClass.filesWith raw.encode)).step (.newRegistry true)).2.setCatalog
      (((⟨Registry.empty (some FileTree.walk), #[]⟩ : Catalog).enter "A.class"
        (.file "A.class")).add ⟨cls, some raw.pool.pool⟩) := by
  obtain ⟨cls, parsed, goes, sourced, ran⟩ := Scan.scan_filesWith resolves named _
  refine ⟨cls, parsed, goes, sourced, ?_⟩
  change (Session.runScan _ _).2 = _
  rw [runScan_eq]
  change Session.setCatalog _ (Scan.left (Scan.scan (RawClass.filesWith raw.encode) "A.class" true
    ⟨Registry.empty (some FileTree.walk), #[]⟩)) = _
  rw [ran]
  rfl

/-- What a session is once the specimen has been scanned in it. -/
theorem exists_specimen : ∃ cls : ClassFile,
    ClassFile.parse RawClass.specimen.encode true "A.class" =
      .ok (cls, RawClass.specimen.pool.pool) ∧ cls.name = "A" ∧ cls.source = "A.class" ∧
    specimen = ((start RawClass.specimenFiles).step (.newRegistry true)).2.setCatalog
      (((⟨Registry.empty (some FileTree.walk), #[]⟩ : Catalog).enter "A.class"
        (.file "A.class")).add ⟨cls, some RawClass.specimen.pool.pool⟩) :=
  exists_scanned RawClass.specimen_resolvable RawClass.specimen_called.1

theorem specimen_classes : specimen.registry.classes["A"]? = some 0 := by
  obtain ⟨cls, _, named, _, scanned⟩ := exists_specimen
  rw [scanned]
  change ((∅ : ClassMap).insert cls.name 0)["A"]? = some 0
  rw [named]
  exact Std.ExtTreeMap.getElem?_insert_self

theorem specimen_entries : specimen.registry.entries["A.class"]? = some (.file "A.class") := by
  obtain ⟨_, _, _, _, scanned⟩ := exists_specimen
  rw [scanned]
  exact Std.ExtTreeMap.getElem?_insert_self

/-- The class in the specimen is the first object of the session, and its name leads there. -/
theorem specimen_registered : ∃ registry cls, specimen.registries[0]? = some registry ∧
    registry.classes["A"]? = some 0 ∧ specimen.objects[0]? = some cls ∧ cls.file.name = "A" := by
  obtain ⟨cls, _, named, _, scanned⟩ := exists_specimen
  rw [scanned]
  refine ⟨_, _, rfl, ?_, rfl, named⟩
  change ((∅ : ClassMap).insert cls.name 0)["A"]? = some 0
  rw [named]
  exact Std.ExtTreeMap.getElem?_insert_self

/-- Scanning the specimen again fails, and its class is still there. -/
theorem registries_kept_specimen : specimen.Reachable ∧ ∃ registry after,
    specimen.registries[0]? = some registry ∧ registry.classes["A"]? = some 0 ∧
      registry.WellKept specimen.objects ∧
      (specimen.step (.scan "A.class" true)).2.registries[0]? = some after ∧
      after.classes["A"]? = some 0 := by
  obtain ⟨registry, _, there, entered, _⟩ := specimen_registered
  obtain ⟨kept, _, scanned⟩ := registries_kept specimen_reachable
  obtain ⟨after, placed, _, classes, _⟩ := scanned "A.class" true 0 registry there
  exact ⟨specimen_reachable, registry, after, there, entered, kept 0 registry there, placed,
    classes "A" 0 entered⟩

end Session

end Classpath
