import Classpath.Proofs.Registry.Reloading
import Classpath.Proofs.Registry.Scanning
import Classpath.Session

/-!
What one operation can do to the registries and the class objects of a session.
-/

set_option autoImplicit false

namespace Classpath

/-- The same objects, though their pools may be others. -/
def SameFiles (before after : Array ClassObject) : Prop :=
  before.size = after.size ∧ ∀ (number : ClassNumber) (object : ClassObject),
    before[number]? = some object → ∃ later, after[number]? = some later ∧ later.file = object.file

theorem SameFiles.refl (objects : Array ClassObject) : SameFiles objects objects :=
  ⟨rfl, fun _ object there => ⟨object, there, rfl⟩⟩

theorem SameFiles.set {objects : Array ClassObject} {number : ClassNumber}
    {object changed : ClassObject} (there : objects[number]? = some object)
    (same : changed.file = object.file) : SameFiles objects (objects.setIfInBounds number changed) := by
  have inside := (Array.getElem?_eq_some_iff.mp there).1
  refine ⟨by simp, ?_⟩
  intro other found otherThere
  by_cases one : number = other
  · subst one
    have known : object = found := Option.some.inj (there.symm.trans otherThere)
    refine ⟨changed, ?_, known ▸ same⟩
    rw [Array.getElem?_setIfInBounds_self_of_lt inside]
  · refine ⟨found, ?_, rfl⟩
    rw [Array.getElem?_setIfInBounds_ne one, otherThere]

theorem ClassObject.file_poolOrLoad (object : ClassObject) (registry : Registry)
    (files : FileTree) : (object.poolOrLoad registry files).2.file = object.file := by
  unfold poolOrLoad
  split
  · rfl
  · split
    · rfl
    · rfl

namespace Session

/-- An operation leaves the registries as they are and changes no more of an object than its pool,
or makes an empty registry, or closes archives, or scans, or reloads. -/
inductive Passes (session : Session) : Operation → Session → Prop
  | keeps {operation : Operation} {later : Session}
      (registries : later.registries = session.registries)
      (objects : SameFiles session.objects later.objects) : Passes session operation later
  | makes (walker : Option Walker) {later : Session}
      (registries : later.registries = session.registries.push (Registry.empty walker))
      (objects : later.objects = session.objects) : Passes session (.addRegistry walker) later
  | closes (archives : Array Archive) (keeps : KeepsArchives session.registry.archives archives) :
      Passes session .close (session.setRegistry { session.registry with archives })
  | scans (path : Path.Text) (own : Bool) :
      Passes session (.scan path own)
        (session.setCatalog (Scan.left (Scan.scan session.files path own session.catalog)))
  | reloads :
      Passes session .reload
        (session.setCatalog (Scan.left (Scan.reload session.files session.catalog)))

theorem runScan_of_ok {session : Session} {step : Scan Unit} {after : Catalog}
    (ran : step session.catalog = .ok () after) :
    session.runScan step = (.finished (.ok ()) (session.setCatalog after).currentListing,
      session.setCatalog after) := by
  rw [runScan, ran]

theorem step_scan_of_ok {session : Session} {path : Path.Text} {own : Bool}
    {after : Catalog} (ran : Scan.scan session.files path own session.catalog = .ok () after) :
    session.step (.scan path own) =
      (.finished (.ok ()) (session.setCatalog after).currentListing, session.setCatalog after) :=
  runScan_of_ok ran

theorem runScan_eq (session : Session) (step : Scan Unit) :
    (session.runScan step).2 = session.setCatalog (Scan.left (step session.catalog)) := by
  unfold runScan
  cases step session.catalog with
  | ok value after => rfl
  | error error after => rfl

theorem asking_session (session : Session) (target : Target) (answer : ClassObject → Answer) :
    (session.asking target answer).2 = session := by
  unfold asking
  split
  · rfl
  · rfl

theorem passes_asking (session : Session) (operation : Operation) (target : Target)
    (answer : ClassObject → Answer) :
    session.Passes operation (session.asking target answer).2 := by
  rw [asking_session]
  exact .keeps rfl (.refl _)

theorem passes_changing (session : Session) (operation : Operation) (target : Target)
    (change : ClassObject → Answer × ClassObject)
    (same : ∀ object, (change object).2.file = object.file) :
    session.Passes operation (session.changing target change).2 := by
  unfold changing
  split
  · exact .keeps rfl (.refl _)
  · split
    · exact .keeps rfl (.refl _)
    · rename_i number _ _ object there
      exact .keeps rfl (.set there (same object))

theorem keepsArchives_closeEach (entries : List (String × Entry)) (archives : Array Archive)
    (failures : List Error) :
    KeepsArchives archives (Registry.closeEach entries archives failures).1 := by
  induction entries generalizing archives failures with
  | nil => exact .refl archives
  | cons first rest ih =>
      obtain ⟨key, entry⟩ := first
      cases entry with
      | file path => exact ih archives failures
      | member path archive index name =>
          exact (KeepsArchives.close archives archive).trans
            (ih (archives.modify archive Archive.close) failures)

theorem step_passes (session : Session) (operation : Operation) :
    session.Passes operation (session.step operation).2 := by
  cases operation with
  | addRegistry walker => exact .makes walker rfl rfl
  | scan path own =>
      have ran := session.runScan_eq (Scan.scan session.files path own)
      change session.Passes _ (session.runScan (Scan.scan session.files path own)).2
      rw [ran]
      exact .scans path own
  | reload =>
      change session.Passes _ (session.runScan (Scan.reload session.files)).2
      rw [runScan_eq]
      exact .reloads
  | close => exact .closes _ (keepsArchives_closeEach _ _ _)
  | hold target label =>
      unfold step
      dsimp only
      split
      · exact .keeps rfl (.refl _)
      · exact .keeps rfl (.refl _)
  | readClassOf target => exact session.passes_asking _ target _
  | readClassByName target => exact session.passes_asking _ target _
  | releasePool target => exact session.passes_changing _ target _ fun _ => rfl
  | keptPool target => exact session.passes_asking _ target _
  | poolOrLoad target =>
      exact session.passes_changing _ target _ fun object => object.file_poolOrLoad _ _
  | loadPool target => exact session.passes_asking _ target _
  | loadCode target name descriptor length => exact session.passes_asking _ target _
  | methodCode target name descriptor => exact session.passes_asking _ target _
  | _ => exact .keeps rfl (.refl _)

/-- What an operation can change: registries and objects, or which registry is the current one, or
the files, or what is held, or the snapshots. -/
inductive Touches (session : Session) : Operation → Session → Prop
  | classes {operation : Operation} (registries : Array Registry) (objects : Array ClassObject) :
      Touches session operation { session with registries, objects }
  | turns {operation : Operation} (registries : Array Registry) (current : Nat) :
      Touches session operation { session with registries, current }
  | files {operation : Operation} (files : FileTree) :
      Touches session operation { session with files }
  | holds (target : Target) (label : String) (number : ClassNumber)
      (told : session.resolve target = some number) :
      Touches session (.hold target label)
        { session with held := (label, number) :: session.held }
  | takes (label : String) :
      Touches session (.takeSnapshot label)
        { session with snapshots := (label, session.registry.classes) :: session.snapshots }

theorem touches_asking (session : Session) (operation : Operation) (target : Target)
    (answer : ClassObject → Answer) :
    session.Touches operation (session.asking target answer).2 := by
  rw [asking_session]
  exact .files session.files

theorem touches_changing (session : Session) (operation : Operation) (target : Target)
    (change : ClassObject → Answer × ClassObject) :
    session.Touches operation (session.changing target change).2 := by
  unfold changing
  split
  · exact .files session.files
  · split
    · exact .files session.files
    · exact .classes session.registries _

theorem touches_runScan (session : Session) (operation : Operation) (step : Scan Unit) :
    session.Touches operation (session.runScan step).2 := by
  rw [runScan_eq]
  exact .classes _ _

theorem step_touches (session : Session) (operation : Operation) :
    session.Touches operation (session.step operation).2 := by
  cases operation with
  | addRegistry walker => exact .turns _ _
  | useRegistry number => exact .turns session.registries number
  | scan path own => exact session.touches_runScan _ _
  | reload => exact session.touches_runScan _ _
  | close => exact .classes _ session.objects
  | hold target label =>
      unfold step
      dsimp only
      split
      · exact .files session.files
      · rename_i number told
        exact .holds target label number told
  | takeSnapshot label => exact .takes label
  | writeFile path content => exact .files _
  | removeFile path => exact .files _
  | readClassOf target => exact session.touches_asking _ target _
  | readClassByName target => exact session.touches_asking _ target _
  | releasePool target => exact session.touches_changing _ target _
  | keptPool target => exact session.touches_asking _ target _
  | poolOrLoad target => exact session.touches_changing _ target _
  | loadPool target => exact session.touches_asking _ target _
  | loadCode target name descriptor length => exact session.touches_asking _ target _
  | methodCode target name descriptor => exact session.touches_asking _ target _
  | _ => exact .files session.files

end Session

end Classpath
