import Classpath.Proofs.Lookup
import Classpath.Proofs.Session.Handles
import Classpath.Proofs.Session.Residency

/-!
Class objects and those who hold them. Main statement: what a snapshot leads to stays what it is,
apart from pools that are asked for; and a reload that succeeds leads to objects that nobody held.
-/

set_option autoImplicit false

namespace Classpath

/-- The same numbers lead to the same classes, in the order of their names. -/
theorem Registry.map_file_objectsOf {before after : Array ClassObject} {classes : ClassMap}
    (same : ∀ (name : String) (number : ClassNumber), classes[name]? = some number →
      after[number]?.map ClassObject.file = before[number]?.map ClassObject.file) :
    (objectsOf after classes).map ClassObject.file =
      (objectsOf before classes).map ClassObject.file := by
  unfold objectsOf
  rw [List.map_filterMap, List.map_filterMap]
  apply List.filterMap_congr
  intro named among
  exact same named.1 named.2 (Std.ExtTreeMap.mem_toList_iff_getElem?_eq_some.mp among)

namespace Session

/-- What is held or kept in a snapshot leads to an object that there is. -/
structure HoldersKept (session : Session) : Prop where
  held : ∀ label number, (label, number) ∈ session.held → number < session.objects.size
  snapshots : ∀ label classes, (label, classes) ∈ session.snapshots →
    ∀ (name : String) (number : ClassNumber), classes[name]? = some number →
      ∃ object, session.objects[number]? = some object ∧ object.file.name = name

section Holders

variable {session : Session}

theorem WellKept.current_named (kept : session.WellKept) {name : String} {number : ClassNumber}
    (entered : session.registry.classes[name]? = some number) :
    ∃ object, session.objects[number]? = some object ∧ object.file.name = name :=
  Registry.WellKept.named kept.catalog name number entered

/-- A target tells an object that there is. -/
theorem HoldersKept.resolve_lt (holders : session.HoldersKept) (kept : session.WellKept)
    {target : Target} {number : ClassNumber} (told : session.resolve target = some number) :
    number < session.objects.size := by
  cases target with
  | held label => exact holders.held label number (mem_of_lookup told)
  | named name =>
      obtain ⟨object, there, _⟩ := kept.current_named told
      exact (Array.getElem?_eq_some_iff.mp there).1
  | inSnapshot label name =>
      obtain ⟨classes, snapshot, entered⟩ := Option.bind_eq_some_iff.mp told
      obtain ⟨object, there, _⟩ :=
        holders.snapshots label classes (mem_of_lookup snapshot) name number entered
      exact (Array.getElem?_eq_some_iff.mp there).1

/-- Objects stay with their classes, so that what leads to one goes on doing so. -/
theorem HoldersKept.mono (holders : session.HoldersKept) {objects : Array ClassObject}
    (same : ∀ (number : ClassNumber) (object : ClassObject),
      session.objects[number]? = some object →
        ∃ later, objects[number]? = some later ∧ later.file = object.file) :
    { session with objects }.HoldersKept := by
  constructor
  · intro label number among
    have inside := holders.held label number among
    obtain ⟨later, there, _⟩ := same number _ (Array.getElem?_eq_getElem inside)
    exact (Array.getElem?_eq_some_iff.mp there).1
  · intro label classes among name number entered
    obtain ⟨object, there, named⟩ := holders.snapshots label classes among name number entered
    obtain ⟨later, laterThere, sameFile⟩ := same number object there
    exact ⟨later, laterThere, by rw [sameFile, named]⟩

theorem HoldersKept.step (holders : session.HoldersKept) (kept : session.WellKept)
    (operation : Operation) : (session.step operation).2.HoldersKept := by
  have objects := (session.step_passes operation).objects kept
  have touched := session.step_touches operation
  generalize (session.step operation).2 = later at touched objects
  cases touched with
  | classes registries changed =>
      have moved := holders.mono objects
      exact ⟨moved.held, moved.snapshots⟩
  | turns registries current => exact ⟨holders.held, holders.snapshots⟩
  | files files => exact ⟨holders.held, holders.snapshots⟩
  | holds target label number told =>
      refine ⟨?_, holders.snapshots⟩
      intro other held among
      rcases List.mem_cons.mp among with first | old
      · cases first
        exact holders.resolve_lt kept told
      · exact holders.held other held old
  | takes label =>
      refine ⟨holders.held, ?_⟩
      intro other classes among name number entered
      rcases List.mem_cons.mp among with first | old
      · cases first
        exact kept.current_named entered
      · exact holders.snapshots other classes old name number entered

end Holders

theorem Reachable.holdersKept {session : Session} (reachable : session.Reachable) :
    session.HoldersKept := by
  induction reachable with
  | start files => exact ⟨nofun, nofun⟩
  | step operation reachable ih => exact ih.step reachable.wellKept operation
  | refile files _ ih => exact ⟨ih.held, ih.snapshots⟩

theorem Reachable.after {session : Session} (reachable : session.Reachable) (events : List Event) :
    (session.after events).Reachable := by
  induction events using List.reverseRecOn with
  | nil => exact reachable
  | append_singleton events event ih =>
      rw [after_append_singleton]
      cases event with
      | asks operation => exact ih.step operation
      | refiles files => exact ih.refile files

/-! What events do to an object and to a snapshot. -/

section Events

variable {session : Session} {number : ClassNumber} {object : ClassObject}

/-- Somewhere among the events, the object is asked to be released or loaded. -/
def AskedFor (session : Session) (number : ClassNumber) (events : List Event) : Prop :=
  ∃ (before : List Event) (event : Event) (later : List Event), events = before ++ event :: later ∧
    ((session.after before).AsksOf number .releasePool event ∨
      (session.after before).AsksOf number .poolOrLoad event)

theorem AskedFor.append {events : List Event} (asked : session.AskedFor number events)
    (event : Event) : session.AskedFor number (events ++ [event]) := by
  obtain ⟨before, found, later, rfl, asks⟩ := asked
  exact ⟨before, found, later ++ [event], by simp, asks⟩

theorem occur_object (kept : session.WellKept) (there : session.objects[number]? = some object)
    (event : Event) : ∃ after, (session.occur event).objects[number]? = some after ∧
      after.file = object.file ∧ (after ≠ object →
        session.AsksOf number .releasePool event ∨ session.AsksOf number .poolOrLoad event) := by
  by_cases released : session.AsksOf number .releasePool event
  · exact ⟨_, occur_release there released, rfl, fun _ => Or.inl released⟩
  · by_cases loaded : session.AsksOf number .poolOrLoad event
    · exact ⟨_, occur_load there loaded, object.file_poolOrLoad _ _, fun _ => Or.inr loaded⟩
    · exact ⟨object, occur_other kept there event released loaded, rfl,
        fun changed => absurd rfl changed⟩

/-- By induction on the events, the last of them split off: an object stays what it is, and if its
pool is another one now, that was asked for. -/
theorem after_keeps (kept : session.WellKept) (there : session.objects[number]? = some object)
    (events : List Event) : ∃ after, (session.after events).objects[number]? = some after ∧
      after.file = object.file ∧ (after ≠ object → session.AskedFor number events) := by
  induction events using List.reverseRecOn with
  | nil => exact ⟨object, there, rfl, fun changed => absurd rfl changed⟩
  | append_singleton events event ih =>
      obtain ⟨between, found, same, asked⟩ := ih
      rw [after_append_singleton]
      obtain ⟨after, placed, still, askedLast⟩ := occur_object (kept.after events) found event
      refine ⟨after, placed, still.trans same, ?_⟩
      intro changed
      by_cases last : after = between
      · rw [last] at changed
        exact (asked changed).append event
      · exact ⟨events, event, [], rfl, askedLast last⟩

/-- A label goes on leading to its snapshot unless it is given to another. -/
theorem lookup_after {label : String} (events : List Event)
    (others : ∀ event ∈ events, event ≠ .asks (.takeSnapshot label)) :
    (session.after events).snapshots.lookup label = session.snapshots.lookup label := by
  induction events using List.reverseRecOn with
  | nil => rfl
  | append_singleton events event ih =>
      rw [after_append_singleton]
      have front := ih fun other among => others other (List.mem_append_left _ among)
      have last := others event (List.mem_append_right _ List.mem_cons_self)
      rw [← front]
      cases event with
      | refiles files => rfl
      | asks operation =>
          have touched := (session.after events).step_touches operation
          change ((session.after events).step operation).2.snapshots.lookup label = _
          generalize ((session.after events).step operation).2 = later at touched
          cases touched with
          | takes other =>
              apply lookup_cons_of_ne
              intro same
              exact last (by rw [same])
          | _ => rfl

end Events

/-! Reloading. -/

section Reloading

variable {session fresh : Session} {listing : Listing}

/-- How a step of a scan is answered tells how it ended. -/
theorem runScan_finished {step : Scan Unit} {outcome : Except Error Unit}
    (ran : session.runScan step = (.finished outcome listing, fresh)) :
    fresh = session.setCatalog (Scan.left (step session.catalog)) ∧
      (outcome = .ok () → ∃ after, step session.catalog = .ok () after) ∧
      ∀ error, outcome = .error error → ∃ after, step session.catalog = .error error after := by
  have left := session.runScan_eq step
  rw [ran] at left
  refine ⟨left, ?_⟩
  unfold runScan at ran
  cases ended : step session.catalog with
  | ok value after =>
      rw [ended] at ran
      cases ran
      exact ⟨fun _ => ⟨after, rfl⟩, nofun⟩
  | error error after =>
      rw [ended] at ran
      cases ran
      exact ⟨nofun, fun _ same => ⟨after, by cases same; rfl⟩⟩

/-- After a reload that succeeds, the classes are objects that there were not before. -/
theorem size_le_of_reload (kept : session.WellKept)
    (ran : session.step .reload = (.finished (.ok ()) listing, fresh)) {name : String}
    {number : Nat} (entered : fresh.registry.classes[name]? = some number) :
    session.objects.size ≤ number := by
  obtain ⟨rfl, succeeds, _⟩ := runScan_finished ran
  obtain ⟨after, reloads⟩ := succeeds rfl
  rw [reloads] at entered
  have renewed := Scan.reloaded_of_reload kept.catalog reloads
  by_cases inside : session.current < session.registries.size
  · rw [Scan.left, registry_setCatalog after inside] at entered
    exact renewed.anew name number entered
  · have missing : (session.setCatalog after).registries.size ≤
        (session.setCatalog after).current := by
      change (session.registries.setIfInBounds _ _).size ≤ session.current
      rw [Array.size_setIfInBounds]
      omega
    rw [Scan.left, registry_eq_empty missing] at entered
    cases (Std.ExtTreeMap.getElem?_empty : (∅ : ClassMap)[name]? = none).symm.trans entered

/-- A reload that fails leaves the session as it is. -/
theorem eq_of_reload_error {error : Error}
    (ran : session.step .reload = (.finished (.error error) listing, fresh)) : fresh = session := by
  obtain ⟨rfl, _, fails⟩ := runScan_finished ran
  obtain ⟨after, ended⟩ := fails error rfl
  rw [ended, Scan.left, Scan.eq_of_reloadInOrder_error ended]
  exact session.setRegistry_self

end Reloading

/-- An object that nobody who held one before can lead to: what they do later leaves it alone. -/
structure Apart (session fresh : Session) (number : ClassNumber) : Prop where
  registries : ∀ (other : Nat) (registry : Registry) (name : String),
    session.registries[other]? = some registry → registry.classes[name]? ≠ some number
  held : ∀ label, (label, number) ∉ session.held
  snapshots : ∀ label classes (name : String), (label, classes) ∈ session.snapshots →
    classes[name]? ≠ some number
  untouched : ∀ (events : List Event) (target : Target) (old : ClassNumber),
    old < session.objects.size → (fresh.after events).resolve target = some old →
    ∀ object, (fresh.after events).objects[number]? = some object →
      ((fresh.after events).step (.releasePool target)).2.objects[number]? = some object ∧
      ((fresh.after events).step (.poolOrLoad target)).2.objects[number]? = some object

theorem apart_of_size_le {session fresh : Session} (reachable : session.Reachable)
    {number : ClassNumber} (behind : session.objects.size ≤ number) :
    session.Apart fresh number := by
  have holders := reachable.holdersKept
  constructor
  · intro other registry name there entered
    have inside := reachable.wellKept.number_lt there entered
    exact absurd inside (Nat.not_lt_of_le behind)
  · intro label among
    have inside := holders.held label number among
    exact absurd inside (Nat.not_lt_of_le behind)
  · intro label classes name among entered
    obtain ⟨object, objectThere, _⟩ := holders.snapshots label classes among name number entered
    have inside := (Array.getElem?_eq_some_iff.mp objectThere).1
    exact absurd inside (Nat.not_lt_of_le behind)
  · intro events target old inside told object there
    have other : (fresh.after events).resolve target ≠ some number := by
      rw [told]
      intro same
      rw [Option.some.inj same] at inside
      exact absurd inside (Nat.not_lt_of_le behind)
    exact ⟨changing_other there target _ other, changing_other there target _ other⟩

/-- In any session that can come to be: a snapshot leads to the same objects for ever, with all but
their pools unchanged; the pool of an object changes only where that is asked for of the object
itself. After a reload that succeeds, the classes are objects that nobody held before, and what is
done through what was held before leaves them alone. A reload that fails changes nothing at all, and
a scan, whether it fails or not, leaves all classes and their objects in place. -/
theorem generations_apart {session : Session} (reachable : session.Reachable) :
    (∀ label classes, session.snapshots.lookup label = some classes → ∀ events : List Event,
      (∀ event ∈ events, event ≠ .asks (.takeSnapshot label)) →
      let later := session.after events
      later.snapshots.lookup label = some classes ∧
      later.step (.snapshotClasses label) =
        (.classes (some (Registry.objectsOf later.objects classes)), later) ∧
      (Registry.objectsOf later.objects classes).map ClassObject.file =
        (Registry.objectsOf session.objects classes).map ClassObject.file ∧
      ∀ (name : String) (number : ClassNumber), classes[name]? = some number →
        ∃ object after, session.objects[number]? = some object ∧
          later.objects[number]? = some after ∧ after.file = object.file ∧
          after.file.name = name) ∧
    (∀ (number : ClassNumber) (object : ClassObject), session.objects[number]? = some object →
      ∀ events : List Event, ∃ after, (session.after events).objects[number]? = some after ∧
        after.file = object.file ∧ (after ≠ object → session.AskedFor number events)) ∧
    (∀ listing fresh, session.step .reload = (.finished (.ok ()) listing, fresh) →
      ∀ (name : String) (number : ClassNumber), fresh.registry.classes[name]? = some number →
        session.Apart fresh number) ∧
    (∀ error listing after, session.step .reload = (.finished (.error error) listing, after) →
      after = session) ∧
    ∀ (path : Path.Text) (own : Bool) (number : Nat) (registry : Registry),
      session.registries[number]? = some registry →
      ∃ after, (session.step (.scan path own)).2.registries[number]? = some after ∧
        KeepsClasses registry after ∧
        ∀ (classNumber : ClassNumber) (object : ClassObject),
          session.objects[classNumber]? = some object →
            (session.step (.scan path own)).2.objects[classNumber]? = some object := by
  have kept := reachable.wellKept
  refine ⟨?_, fun number object there => after_keeps kept there, ?_, ?_, ?_⟩
  · intro label classes snapshot events others later
    have still : later.snapshots.lookup label = some classes :=
      (lookup_after events others).trans snapshot
    have stays (name : String) (number : ClassNumber) (entered : classes[name]? = some number) :
        ∃ object after, session.objects[number]? = some object ∧
          later.objects[number]? = some after ∧ after.file = object.file ∧
          after.file.name = name := by
      obtain ⟨object, there, named⟩ := reachable.holdersKept.snapshots label classes
        (mem_of_lookup snapshot) name number entered
      obtain ⟨after, placed, same, _⟩ := after_keeps kept there events
      exact ⟨object, after, there, placed, same, by rw [same, named]⟩
    refine ⟨still, ?_, ?_, stays⟩
    · simp only [step, still, Option.map_some]
    · apply Registry.map_file_objectsOf
      intro name number entered
      obtain ⟨object, after, there, placed, same, _⟩ := stays name number entered
      rw [there, placed, Option.map_some, Option.map_some, same]
  · intro listing fresh ran name number entered
    exact apart_of_size_le reachable (size_le_of_reload kept ran entered)
  · intro error listing after ran
    exact eq_of_reload_error ran
  · intro path own number registry there
    obtain ⟨after, placed, _, classes, objects⟩ := scan_keepsClasses kept path own there
    exact ⟨after, placed, classes, objects⟩

/-- The specimen with its class map kept as a snapshot, and its class held. -/
def keptSpecimen : Session :=
  ((specimen.step (.takeSnapshot "then")).2.step (.hold (.named "A") "kept")).2

theorem keptSpecimen_eq : keptSpecimen =
    { specimen with
      held := ("kept", 0) :: specimen.held
      snapshots := ("then", specimen.registry.classes) :: specimen.snapshots } := by
  have told : (specimen.step (.takeSnapshot "then")).2.resolve (.named "A") = some 0 :=
    specimen_classes
  unfold keptSpecimen
  generalize between : (specimen.step (.takeSnapshot "then")).2 = session at told ⊢
  simp only [step, told]
  rw [← between]
  rfl

/-- The specimen can be reloaded, and its class then goes by its name as before. -/
theorem reload_keptSpecimen : ∃ listing fresh number,
    keptSpecimen.step .reload = (.finished (.ok ()) listing, fresh) ∧
      fresh.registry.classes["A"]? = some number := by
  have traced : specimen.Traced _ := .step _ (.step _ (.start _))
  have kept := specimen_reachable.wellKept.catalog
  obtain ⟨after, ran, same⟩ := Scan.reload_unchanged kept (traced.rereads_same fun _ _ _ => rfl)
  obtain ⟨object, there, _⟩ := specimen_reachable.wellKept.current_named specimen_classes
  have registered : specimen.catalog.class? "A" = some object :=
    (Catalog.class?_eq_some_iff _ _ _).mpr ⟨0, specimen_classes, there⟩
  have still := same "A"
  rw [registered, Option.map_some, Option.map_eq_some_iff] at still
  obtain ⟨reloaded, found, _⟩ := still
  obtain ⟨number, entered, _⟩ := (Catalog.class?_eq_some_iff _ _ _).mp found
  have current := (Array.getElem?_eq_some_iff.mp (registry_there specimen_classes)).1
  have stepped : keptSpecimen.step .reload =
      (.finished (.ok ()) (keptSpecimen.setCatalog after).currentListing,
        keptSpecimen.setCatalog after) := by
    rw [keptSpecimen_eq]
    exact runScan_of_ok ran
  refine ⟨_, _, number, stepped, ?_⟩
  have swapped : (keptSpecimen.setCatalog after).registry = after.registry := by
    rw [keptSpecimen_eq]
    exact registry_setRegistry after.registry current
  rw [swapped]
  exact entered

/-- Once the specimen has been reloaded, its name leads to a new object, while the snapshot still
leads to the one that is held. -/
theorem generations_apart_specimen : keptSpecimen.Reachable ∧
    keptSpecimen.resolve (.held "kept") = some 0 ∧ ∃ listing fresh number,
      keptSpecimen.step .reload = (.finished (.ok ()) listing, fresh) ∧
      fresh.resolve (.inSnapshot "then" "A") = some 0 ∧
      fresh.resolve (.named "A") = some number ∧ number ≠ 0 ∧
      keptSpecimen.Apart fresh number := by
  have reachable : keptSpecimen.Reachable := .step _ (.step _ specimen_reachable)
  have held : keptSpecimen.resolve (.held "kept") = some 0 := by
    rw [keptSpecimen_eq]
    rfl
  have snapshot : keptSpecimen.snapshots.lookup "then" = some specimen.registry.classes := by
    rw [keptSpecimen_eq]
    rfl
  obtain ⟨listing, fresh, number, stepped, entered⟩ := reload_keptSpecimen
  obtain ⟨snapshots, _, reloads, _⟩ := generations_apart reachable
  have apart := reloads listing fresh stepped "A" number entered
  obtain ⟨still, _⟩ := snapshots "then" _ snapshot [.asks .reload] (by simp)
  have later : keptSpecimen.after [.asks .reload] = fresh := congrArg Prod.snd stepped
  rw [later] at still
  refine ⟨reachable, held, listing, fresh, number, stepped, ?_, entered, ?_, apart⟩
  · rw [resolve, still]
    exact specimen_classes
  · intro same
    rw [same] at apart
    exact apart.held "kept" (mem_of_lookup held)

end Session

end Classpath
