import Mathlib.Data.List.Induction
import Classpath.Proofs.ClassFile.CodePlace
import Classpath.Proofs.Session.Tracing

/-!
Pools that are released and loaded again. Main statement: while the bytes that a class was parsed
from can be read, nothing that is asked of the class tells whether its pool has been released, apart
from the question whether it is kept, and it is unless it was released after it was last loaded.
-/

set_option autoImplicit false

namespace Classpath

/-- The pool that is read again from bytes that parse is the one that they were parsed with. -/
theorem ClassFile.rereadPool_of_parse {bytes : Bytes} {own : Bool} {source : String}
    {cls : ClassFile} {pool : Pool} (parsed : parse bytes own source = .ok (cls, pool)) :
    cls.rereadPool bytes = .ok pool := by
  obtain ⟨raw, tail, _, _, _, _, _, pooled, spelled⟩ := (parse_eq_ok_iff _ _ _ _ _).mp parsed
  rw [spelled, pooled, RawClass.encode, List.append_assoc, List.append_assoc]
  exact rereadPool_eq_ok cls raw.encodeHead raw.pool _ raw.length_encodeHead

namespace ClassObject

section Served

variable {bytes : Bytes} {cls : ClassFile} {pool : Pool} {registry : Registry} {files : FileTree}
  (parsed : ClassFile.parse bytes cls.own cls.source = .ok (cls, pool))
  (served : registry.readClassOf files cls = .ok (some bytes))
  {kept : Option Pool} (resident : kept = some pool ∨ kept = none)

include parsed served

theorem loadPool_of_served (kept : Option Pool) :
    (⟨cls, kept⟩ : ClassObject).loadPool registry files = .ok (some pool) := by
  simp only [loadPool, served]
  change some <$> cls.rereadPool bytes = _
  rw [ClassFile.rereadPool_of_parse parsed]
  rfl

include resident

theorem poolOrLoad_of_served :
    (⟨cls, kept⟩ : ClassObject).poolOrLoad registry files =
      (.ok (some pool), ⟨cls, some pool⟩) := by
  rcases resident with rfl | rfl
  · rfl
  · unfold poolOrLoad
    dsimp only
    rw [loadPool_of_served parsed served none]

/-- Code is loaded as it would be with the pool kept. -/
theorem loadCode_of_served (name descriptor : String) (length : Nat) :
    (⟨cls, kept⟩ : ClassObject).loadCode registry files name descriptor length =
      (⟨cls, some pool⟩ : ClassObject).loadCode registry files name descriptor length := by
  obtain ⟨raw, tail, resolves, _, _, _, _, rfl, rfl⟩ :=
    (ClassFile.parse_eq_ok_iff _ _ _ _ _).mp parsed
  rw [loadCode_eq_carvedAt raw resolves tail served resident,
    loadCode_eq_carvedAt raw resolves tail served (Or.inl rfl)]

theorem methodCode_of_served (method : Method) :
    (⟨cls, kept⟩ : ClassObject).methodCode registry files method =
      (⟨cls, some pool⟩ : ClassObject).methodCode registry files method := by
  unfold methodCode
  cases method.codeLength with
  | none => rfl
  | some length =>
      exact loadCode_of_served parsed served resident method.name method.descriptor length.toNat

end Served

/-- A pool that cannot be loaded is not kept either. -/
theorem poolOrLoad_of_not_loaded {cls : ClassFile} {registry : Registry} {files : FileTree}
    {outcome : Except Error (Option Pool)}
    (loaded : (⟨cls, none⟩ : ClassObject).loadPool registry files = outcome)
    (missing : ∀ pool, outcome ≠ .ok (some pool)) :
    (⟨cls, none⟩ : ClassObject).poolOrLoad registry files = (outcome, ⟨cls, none⟩) := by
  unfold poolOrLoad
  dsimp only
  rw [loaded]
  split
  · rename_i pool
    exact absurd rfl (missing pool)
  · rfl

end ClassObject

namespace Session

/-- What can happen to a session: something is asked of it, or the files become others. -/
inductive Event where
  | asks (operation : Operation)
  | refiles (files : FileTree)

def occur (session : Session) : Event → Session
  | .asks operation => (session.step operation).2
  | .refiles files => { session with files }

/-- The session after events in a row. -/
def after (session : Session) (events : List Event) : Session := events.foldl occur session

@[simp] theorem after_nil (session : Session) : session.after [] = session := rfl

@[simp] theorem after_append_singleton (session : Session) (events : List Event) (event : Event) :
    session.after (events ++ [event]) = (session.after events).occur event := by
  simp [after]

theorem WellKept.occur {session : Session} (kept : session.WellKept) (event : Event) :
    (session.occur event).WellKept := by
  cases event with
  | asks operation => exact (session.step_passes operation).wellKept kept
  | refiles files => exact kept

theorem WellKept.after {session : Session} (kept : session.WellKept) (events : List Event) :
    (session.after events).WellKept := by
  induction events using List.reverseRecOn with
  | nil => exact kept
  | append_singleton events event ih =>
      rw [after_append_singleton]
      exact ih.occur event

/-- The event is that an operation on a class object is asked for, and of object `number`. -/
def AsksOf (session : Session) (number : ClassNumber) (operation : Target → Operation)
    (event : Event) : Prop :=
  ∃ target, event = .asks (operation target) ∧ session.resolve target = some number

/-! What one event does to one object. -/

section Objects

variable {session : Session} {number : ClassNumber} {object : ClassObject}

theorem asking_eq {target : Target} (told : session.resolve target = some number)
    (there : session.objects[number]? = some object) (answer : ClassObject → Answer) :
    session.asking target answer = (answer object, session) := by
  have found : session.object? target = some object := by
    rw [object?, told, Option.bind_some, there]
  rw [asking, found]

theorem changing_eq {target : Target} (told : session.resolve target = some number)
    (there : session.objects[number]? = some object)
    (change : ClassObject → Answer × ClassObject) :
    session.changing target change =
      ((change object).1, session.setObject number (change object).2) := by
  simp only [changing, told, there]

theorem setObject_self (there : session.objects[number]? = some object) :
    session.setObject number object = session := by
  rw [setObject, setIfInBounds_self there]

theorem changing_self (there : session.objects[number]? = some object) (target : Target)
    (change : ClassObject → Answer × ClassObject) (told : session.resolve target = some number) :
    (session.changing target change).2.objects[number]? = some (change object).2 := by
  rw [changing_eq told there]
  exact Array.getElem?_setIfInBounds_self_of_lt (Array.getElem?_eq_some_iff.mp there).1

theorem changing_other (there : session.objects[number]? = some object) (target : Target)
    (change : ClassObject → Answer × ClassObject) (other : session.resolve target ≠ some number) :
    (session.changing target change).2.objects[number]? = some object := by
  unfold changing
  split
  · exact there
  · split
    · exact there
    · rename_i changed told _ _ _
      have apart : changed ≠ number := by
        intro same
        exact other (same ▸ told)
      exact (Array.getElem?_setIfInBounds_ne apart).trans there

/-- Only a release and a load can change an object. -/
theorem step_keeps_object (kept : session.WellKept)
    (there : session.objects[number]? = some object) (operation : Operation)
    (noRelease : ¬ session.AsksOf number .releasePool (.asks operation))
    (noLoad : ¬ session.AsksOf number .poolOrLoad (.asks operation)) :
    (session.step operation).2.objects[number]? = some object := by
  cases operation with
  | scan path own =>
      change (session.runScan (Scan.scan session.files path own)).2.objects[number]? = _
      rw [runScan_eq]
      have grown := Scan.growing_scan session.files path own session.catalog kept.catalog
      exact (Catalog.Grows.keeps grown).objects number object there
  | reload =>
      change (session.runScan (Scan.reload session.files)).2.objects[number]? = _
      rw [runScan_eq]
      exact Catalog.reload_objects session.files session.catalog number object there
  | hold target label =>
      unfold step
      dsimp only
      split
      · exact there
      · exact there
  | releasePool target =>
      apply changing_other there
      intro told
      exact noRelease ⟨target, rfl, told⟩
  | poolOrLoad target =>
      apply changing_other there
      intro told
      exact noLoad ⟨target, rfl, told⟩
  | readClassOf target | readClassByName target | keptPool target | loadPool target
  | loadCode target name descriptor length | methodCode target name descriptor =>
      simp only [step, asking_session]
      exact there
  | _ => exact there

theorem occur_other (kept : session.WellKept) (there : session.objects[number]? = some object)
    (event : Event) (noRelease : ¬ session.AsksOf number .releasePool event)
    (noLoad : ¬ session.AsksOf number .poolOrLoad event) :
    (session.occur event).objects[number]? = some object := by
  cases event with
  | asks operation => exact step_keeps_object kept there operation noRelease noLoad
  | refiles files => exact there

theorem occur_release (there : session.objects[number]? = some object) {event : Event}
    (released : session.AsksOf number .releasePool event) :
    (session.occur event).objects[number]? = some object.releasePool := by
  obtain ⟨target, rfl, told⟩ := released
  exact changing_self there target _ told

theorem occur_load (there : session.objects[number]? = some object) {event : Event}
    (loaded : session.AsksOf number .poolOrLoad event) :
    (session.occur event).objects[number]? =
      some (object.poolOrLoad session.registry session.files).2 := by
  obtain ⟨target, rfl, told⟩ := loaded
  exact changing_self there target _ told

end Objects

/-! What became of an object over events in a row. -/

/-- Whenever a load of the object is asked for, the class can be read as the bytes. -/
def Serves (session : Session) (number : ClassNumber) (cls : ClassFile) (bytes : Bytes)
    (events : List Event) : Prop :=
  ∀ (before : List Event) (load : Event) (later : List Event), events = before ++ load :: later →
    (session.after before).AsksOf number .poolOrLoad load →
    (session.after before).registry.readClassOf (session.after before).files cls =
      .ok (some bytes)

/-- Each release of the object has been followed by a load of it. -/
def KeptSince (session : Session) (number : ClassNumber) (events : List Event) : Prop :=
  ∀ (before : List Event) (release : Event) (later : List Event),
    events = before ++ release :: later →
    (session.after before).AsksOf number .releasePool release →
    ∃ (between : List Event) (load : Event) (rest : List Event),
      later = between ++ load :: rest ∧
        (session.after (before ++ release :: between)).AsksOf number .poolOrLoad load

theorem append_singleton_eq_iff {events before later : List Event} {last event : Event} :
    events ++ [last] = before ++ event :: later ↔
      (later = [] ∧ before = events ∧ event = last) ∨
        ∃ front, later = front ++ [last] ∧ events = before ++ event :: front := by
  rcases later.eq_nil_or_concat with rfl | ⟨front, found, rfl⟩
  · constructor
    · intro same
      obtain ⟨one, two⟩ := List.append_inj' same rfl
      exact Or.inl ⟨rfl, one.symm, (List.singleton_inj.mp two).symm⟩
    · rintro (⟨_, rfl, rfl⟩ | ⟨front, none, _⟩)
      · rfl
      · simp at none
  · constructor
    · intro same
      rw [List.concat_eq_append, ← List.cons_append, ← List.append_assoc] at same
      obtain ⟨one, two⟩ := List.append_inj' same rfl
      rw [List.singleton_inj.mp two]
      exact Or.inr ⟨front, List.concat_eq_append, one⟩
    · rintro (⟨none, _⟩ | ⟨other, same, rfl⟩)
      · simp at none
      · rw [same, List.append_assoc, List.cons_append]

section Histories

variable {session : Session} {number : ClassNumber} {events : List Event} {event : Event}

theorem Serves.front {cls : ClassFile} {bytes : Bytes}
    (serves : session.Serves number cls bytes (events ++ [event])) :
    session.Serves number cls bytes events := by
  intro before load later split asked
  apply serves before load (later ++ [event]) _ asked
  rw [split, List.append_assoc, List.cons_append]

theorem Serves.last {cls : ClassFile} {bytes : Bytes}
    (serves : session.Serves number cls bytes (events ++ [event]))
    (loaded : (session.after events).AsksOf number .poolOrLoad event) :
    (session.after events).registry.readClassOf (session.after events).files cls =
      .ok (some bytes) :=
  serves events event [] rfl loaded

theorem keptSince_nil : session.KeptSince number [] := by
  intro before release later split
  simp at split

theorem not_keptSince_of_release
    (released : (session.after events).AsksOf number .releasePool event) :
    ¬ session.KeptSince number (events ++ [event]) := by
  intro since
  obtain ⟨between, load, rest, none, _⟩ := since events event [] rfl released
  simp at none

theorem keptSince_of_load (loaded : (session.after events).AsksOf number .poolOrLoad event) :
    session.KeptSince number (events ++ [event]) := by
  intro before release later split released
  rcases append_singleton_eq_iff.mp split with ⟨_, rfl, rfl⟩ | ⟨front, rfl, rfl⟩
  · obtain ⟨_, asked, _⟩ := loaded
    obtain ⟨_, other, _⟩ := released
    rw [asked] at other
    cases other
  · exact ⟨front, event, [], rfl, loaded⟩

theorem keptSince_of_other
    (noRelease : ¬ (session.after events).AsksOf number .releasePool event)
    (noLoad : ¬ (session.after events).AsksOf number .poolOrLoad event) :
    session.KeptSince number (events ++ [event]) ↔ session.KeptSince number events := by
  constructor
  · intro since before release later split released
    have whole : events ++ [event] = before ++ release :: (later ++ [event]) := by
      rw [split, List.append_assoc, List.cons_append]
    obtain ⟨between, load, rest, found, loaded⟩ := since before release _ whole released
    rcases append_singleton_eq_iff.mp found with ⟨_, rfl, rfl⟩ | ⟨front, rfl, rfl⟩
    · rw [← split] at loaded
      exact absurd loaded noLoad
    · exact ⟨between, load, front, rfl, loaded⟩
  · intro since before release later split released
    rcases append_singleton_eq_iff.mp split with ⟨_, rfl, rfl⟩ | ⟨front, rfl, rfl⟩
    · exact absurd released noRelease
    · obtain ⟨between, load, rest, rfl, loaded⟩ := since before release front rfl released
      exact ⟨between, load, rest ++ [event], by simp, loaded⟩

/-- By induction on the events, the last of them split off: the object keeps the pool that it came
with, or none, and which of both is told by the releases and the loads. -/
theorem after_object {cls : ClassFile} {pool : Pool} {bytes : Bytes} (kept : session.WellKept)
    (parsed : ClassFile.parse bytes cls.own cls.source = .ok (cls, pool))
    (there : session.objects[number]? = some ⟨cls, some pool⟩) (events : List Event)
    (serves : session.Serves number cls bytes events) :
    ∃ resident : Option Pool, (session.after events).objects[number]? = some ⟨cls, resident⟩ ∧
      (resident = some pool ∧ session.KeptSince number events ∨
        resident = none ∧ ¬ session.KeptSince number events) := by
  induction events using List.reverseRecOn with
  | nil => exact ⟨some pool, there, Or.inl ⟨rfl, keptSince_nil⟩⟩
  | append_singleton events event ih =>
      obtain ⟨resident, found, known⟩ := ih serves.front
      rw [after_append_singleton]
      by_cases released : (session.after events).AsksOf number .releasePool event
      · exact ⟨none, occur_release found released,
          Or.inr ⟨rfl, not_keptSince_of_release released⟩⟩
      · by_cases loaded : (session.after events).AsksOf number .poolOrLoad event
        · have either : resident = some pool ∨ resident = none := by
            rcases known with ⟨same, _⟩ | ⟨same, _⟩
            · exact Or.inl same
            · exact Or.inr same
          have changed := occur_load found loaded
          rw [ClassObject.poolOrLoad_of_served parsed (serves.last loaded) either] at changed
          exact ⟨some pool, changed, Or.inl ⟨rfl, keptSince_of_load loaded⟩⟩
        · have same := occur_other (kept.after events) found event released loaded
          rw [keptSince_of_other released loaded]
          exact ⟨resident, same, known⟩

end Histories

/-- A class that an operation has registered is kept with the pool of the bytes it was parsed from,
and these are what it can now be read as. -/
theorem step_registers {session : Session} (kept : session.WellKept) (operation : Operation)
    {name : String} {number : ClassNumber}
    (entered : (session.step operation).2.registry.classes[name]? = some number)
    (new : session.objects.size ≤ number) :
    ∃ (cls : ClassFile) (pool : Pool) (bytes : Bytes),
      (session.step operation).2.objects[number]? = some ⟨cls, some pool⟩ ∧
      (session.step operation).2.registry.readClassOf (session.step operation).2.files cls =
        .ok (some bytes) ∧
      ClassFile.parse bytes cls.own cls.source = .ok (cls, pool) := by
  have passes := session.step_passes operation
  rcases passes.classes_new kept (registry_there entered) entered with
    ⟨old, oldThere, oldEntered⟩ | ⟨_, _, reads⟩
  · obtain ⟨object, objectThere, _⟩ := (kept _ old oldThere).named name number oldEntered
    have inside := (Array.getElem?_eq_some_iff.mp objectThere).1
    omega
  · obtain ⟨⟨cls, _⟩, entry, bytes, pool, there, sourced, behind, parsed, rfl⟩ := reads
    have readable := (Registry.readClassOf_eq_ok_iff cls bytes).mpr ⟨entry, sourced, behind⟩
    exact ⟨cls, pool, bytes, there, readable, parsed⟩

/-- What is asked of a class through a target is answered as if its pool had never been released. -/
structure AnswersAsKept (session : Session) (number : ClassNumber) (cls : ClassFile) (pool : Pool)
    (target : Target) : Prop where
  poolOrLoad : session.step (.poolOrLoad target) =
    (.pool (.ok (some pool)), session.setObject number ⟨cls, some pool⟩)
  loadPool : session.step (.loadPool target) = (.pool (.ok (some pool)), session)
  loadCode : ∀ (name descriptor : String) (length : Nat),
    session.step (.loadCode target name descriptor length) =
      (.bytes ((⟨cls, some pool⟩ : ClassObject).loadCode session.registry session.files name
        descriptor length), session)
  methodCode : ∀ (name descriptor : String) (method : Method),
    cls.method? name descriptor = some method →
    session.step (.methodCode target name descriptor) =
      (.bytes ((⟨cls, some pool⟩ : ClassObject).methodCode session.registry session.files method),
        session)

theorem answersAsKept_of_served {session : Session} {number : ClassNumber} {cls : ClassFile}
    {pool : Pool} {bytes : Bytes} {kept : Option Pool} {target : Target}
    (parsed : ClassFile.parse bytes cls.own cls.source = .ok (cls, pool))
    (served : session.registry.readClassOf session.files cls = .ok (some bytes))
    (resident : kept = some pool ∨ kept = none)
    (told : session.resolve target = some number)
    (there : session.objects[number]? = some ⟨cls, kept⟩) :
    session.AnswersAsKept number cls pool target := by
  constructor
  · have loaded := ClassObject.poolOrLoad_of_served parsed served resident
    simp only [step, changing_eq told there, loaded]
  · have loaded := ClassObject.loadPool_of_served parsed served kept
    simp only [step, asking_eq told there, loaded]
  · intro name descriptor length
    have same := ClassObject.loadCode_of_served parsed served resident name descriptor length
    simp only [step, asking_eq told there, same]
  · intro name descriptor method first
    have same := ClassObject.methodCode_of_served parsed served resident method
    simp only [step, asking_eq told there, first, same]

/-- A load of a released class whose pool cannot be had answers so, and changes nothing. -/
theorem step_poolOrLoad_of_not_loaded {session : Session} {target : Target} {number : ClassNumber}
    {cls : ClassFile} {outcome : Except Error (Option Pool)}
    (told : session.resolve target = some number)
    (released : session.objects[number]? = some ⟨cls, none⟩)
    (loaded : (⟨cls, none⟩ : ClassObject).loadPool session.registry session.files = outcome)
    (missing : ∀ pool, outcome ≠ .ok (some pool)) :
    session.step (.poolOrLoad target) = (.pool outcome, session) := by
  have same := ClassObject.poolOrLoad_of_not_loaded loaded missing
  simp only [step, changing_eq told released, same, setObject_self released]

/-- Of a class that an operation has registered: after any events, as long as loads find the bytes
that it was parsed from, its pool is kept if each release has been followed by a load, and else is
not. If the bytes can then be read, all is answered as if it were kept. What is looked at changes
nothing, and a load that finds no pool leaves the class released. -/
theorem residency_transparent :
    (∀ (session : Session) (operation : Operation) (name : String) (number : ClassNumber),
      session.Reachable →
      (session.step operation).2.registry.classes[name]? = some number →
      session.objects.size ≤ number →
      let fresh := (session.step operation).2
      ∃ (cls : ClassFile) (pool : Pool) (bytes : Bytes),
        fresh.objects[number]? = some ⟨cls, some pool⟩ ∧
        fresh.registry.readClassOf fresh.files cls = .ok (some bytes) ∧
        ClassFile.parse bytes cls.own cls.source = .ok (cls, pool) ∧
        ∀ events : List Event, fresh.Serves number cls bytes events →
          let now := fresh.after events
          ∃ kept : Option Pool, now.objects[number]? = some ⟨cls, kept⟩ ∧
            (kept = some pool ∧ fresh.KeptSince number events ∨
              kept = none ∧ ¬ fresh.KeptSince number events) ∧
            ∀ target : Target, now.resolve target = some number →
              now.step (.keptPool target) = (.pool (.ok kept), now) ∧
              (now.registry.readClassOf now.files cls = .ok (some bytes) →
                now.AnswersAsKept number cls pool target)) ∧
    (∀ (session : Session) (target : Target) (name descriptor : String) (length : Nat),
      (session.step (.keptPool target)).2 = session ∧
      (session.step (.loadPool target)).2 = session ∧
      (session.step (.loadCode target name descriptor length)).2 = session ∧
      (session.step (.methodCode target name descriptor)).2 = session) ∧
    ∀ (session : Session) (target : Target) (number : ClassNumber) (cls : ClassFile),
      session.resolve target = some number → session.objects[number]? = some ⟨cls, none⟩ →
      (session.registry.readClassOf session.files cls = .ok none →
        session.step (.poolOrLoad target) = (.pool (.ok none), session)) ∧
      (∀ error, session.registry.readClassOf session.files cls = .error error →
        session.step (.poolOrLoad target) = (.pool (.error error), session)) ∧
      ∀ bytes error, session.registry.readClassOf session.files cls = .ok (some bytes) →
        cls.rereadPool bytes = .error error →
        session.step (.poolOrLoad target) = (.pool (.error error), session) := by
  refine ⟨?_, ?_, ?_⟩
  · intro session operation name number reachable entered new fresh
    obtain ⟨cls, pool, bytes, there, readable, parsed⟩ :=
      step_registers reachable.wellKept operation entered new
    refine ⟨cls, pool, bytes, there, readable, parsed, ?_⟩
    intro events serves now
    have freshKept : fresh.WellKept := (reachable.step operation).wellKept
    obtain ⟨kept, found, known⟩ := after_object freshKept parsed there events serves
    have resident : kept = some pool ∨ kept = none := known.imp And.left And.left
    refine ⟨kept, found, known, ?_⟩
    intro target told
    exact ⟨asking_eq told found _, fun served =>
      answersAsKept_of_served parsed served resident told found⟩
  · intro session target name descriptor length
    exact ⟨session.asking_session target _, session.asking_session target _,
      session.asking_session target _, session.asking_session target _⟩
  · intro session target number cls told released
    refine ⟨?_, ?_, ?_⟩
    · intro absent
      apply step_poolOrLoad_of_not_loaded told released
      · simp only [ClassObject.loadPool, absent]
        rfl
      · simp
    · intro error unreadable
      apply step_poolOrLoad_of_not_loaded told released
      · simp only [ClassObject.loadPool, unreadable]
        rfl
      · simp
    · intro bytes error readable undecodable
      apply step_poolOrLoad_of_not_loaded told released
      · simp only [ClassObject.loadPool, readable]
        change some <$> cls.rereadPool bytes = _
        rw [undecodable]
        rfl
      · simp

/-- The specimen's class once it has been released. -/
def releasedSpecimen : Session := (specimen.step (.releasePool (.named "A"))).2

theorem specimen_unreadable {cls : ClassFile} (sourced : cls.source = "A.class") :
    ∃ error, specimen.registry.readClassOf FileTree.empty cls = .error error := by
  have gone : FileTree.empty.read "A.class" = .error .fileNotFound := by decide
  rw [Registry.readClassOf, Registry.readResource, sourced, specimen_entries]
  dsimp only
  rw [Entry.read, gone]
  exact ⟨_, rfl⟩

/-- The specimen's class, once released, is not kept and can be loaded, and it stays released if its
file is gone. -/
theorem residency_transparent_specimen :
    specimen.Reachable ∧ specimen.registry.classes["A"]? = some 0 ∧ ∃ cls pool,
      releasedSpecimen.step (.keptPool (.named "A")) = (.pool (.ok none), releasedSpecimen) ∧
      releasedSpecimen.AnswersAsKept 0 cls pool (.named "A") ∧
      ∃ error, { releasedSpecimen with files := FileTree.empty }.step (.poolOrLoad (.named "A")) =
        (.pool (.error error), { releasedSpecimen with files := FileTree.empty }) := by
  obtain ⟨known, _, _, sourced, scanned⟩ := exists_specimen
  have placed : specimen.objects[0]? = some ⟨known, some RawClass.specimen.pool.pool⟩ := by
    rw [scanned]
    rfl
  obtain ⟨transparent, _, missed⟩ := residency_transparent
  obtain ⟨cls, pool, bytes, there, readable, _, answers⟩ := transparent
    ((start RawClass.specimenFiles).step (.newRegistry true)).2 (.scan "A.class" true) "A" 0
    (.step _ (.start _)) specimen_classes (Nat.le_refl 0)
  have same : cls = known :=
    congrArg ClassObject.file (Option.some.inj (there.symm.trans placed))
  have named : specimen.resolve (.named "A") = some 0 := specimen_classes
  have turned : releasedSpecimen = specimen.setObject 0 ⟨cls, none⟩ :=
    congrArg Prod.snd (changing_eq named there _)
  have told : releasedSpecimen.resolve (.named "A") = some 0 := by
    rw [turned]
    exact specimen_classes
  have released : ¬ specimen.KeptSince 0 ([] ++ [.asks (.releasePool (.named "A"))]) :=
    not_keptSince_of_release ⟨.named "A", rfl, named⟩
  have serves : specimen.Serves 0 cls bytes [.asks (.releasePool (.named "A"))] := by
    intro before load later split asked
    obtain ⟨target, rfl, _⟩ := asked
    cases before with
    | nil => simp at split
    | cons first rest => simp at split
  obtain ⟨kept, found, residency, asked⟩ := answers _ serves
  have none : kept = none := by
    rcases residency with ⟨_, since⟩ | ⟨none, _⟩
    · exact absurd since released
    · exact none
  subst none
  obtain ⟨error, unreadable⟩ := specimen_unreadable (same ▸ sourced)
  obtain ⟨empty, answersAsKept⟩ := asked (.named "A") told
  refine ⟨specimen_reachable, specimen_classes, cls, pool, empty, ?_, error, ?_⟩
  · apply answersAsKept
    change releasedSpecimen.registry.readClassOf releasedSpecimen.files cls = _
    rw [turned]
    exact readable
  · obtain ⟨_, unreadableStays, _⟩ := missed { releasedSpecimen with files := FileTree.empty }
      (.named "A") 0 cls told found
    apply unreadableStays
    change releasedSpecimen.registry.readClassOf FileTree.empty cls = _
    rw [turned]
    exact unreadable

end Session

end Classpath
