import Classpath.Proofs.Registry.Mirroring
import Classpath.Proofs.Session.Generations

/-!
Registries to which no class object of another is passed, each beside one that is alone. Main
statement: what is asked of the registry is answered as it is by the one alone, and the two go on
side by side.
-/

set_option autoImplicit false

namespace Classpath

namespace Operation

/-- The operation chooses a registry instead of asking the chosen one for something. -/
def chooses : Operation → Bool
  | addRegistry _ | useRegistry _ => true
  | _ => false

/-- The class object that is passed to the registry. -/
def target? : Operation → Option Target
  | findClass target | hold target _ | readClassOf target | readClassByName target
  | releasePool target | keptPool target | poolOrLoad target | loadPool target
  | loadCode target .. | methodCode target .. => some target
  | _ => none

/-- The snapshot that is looked into. -/
def snapshot? : Operation → Option String
  | snapshotClasses label => some label
  | operation =>
      match operation.target? with
      | some (.inSnapshot label _) => some label
      | _ => none

end Operation

namespace Session

/-- What is known of a run: the registry that each class object was made in, the registry whose
classes each snapshot holds, and what each registry was asked and answered. -/
structure Ledger where
  maker : ClassNumber → Nat
  taker : String → Option Nat
  asked : Nat → List (Operation × Answer)

namespace Ledger

def blank : Ledger := ⟨fun _ => 0, fun _ => none, fun _ => []⟩

/-- The ledger once an operation has been entered. -/
def after (ledger : Ledger) (session : Session) (operation : Operation) : Ledger where
  maker number := if number < session.objects.size then ledger.maker number else session.current
  taker :=
    match operation with
    | .takeSnapshot label => Function.update ledger.taker label (some session.current)
    | _ => ledger.taker
  asked :=
    if operation.chooses then ledger.asked
    else Function.update ledger.asked session.current
      (ledger.asked session.current ++ [(operation, (session.step operation).1)])

end Ledger

/-- An operation chooses a registry, or it asks one that there is, leaves the files as they are, and
passes to the registry only class objects and snapshots that are its own. -/
structure Own (session : Session) (ledger : Ledger) (operation : Operation) : Prop where
  there : operation.chooses = false → session.current < session.registries.size
  files : (session.step operation).2.files = session.files
  objects : ∀ target number, operation.target? = some target →
    session.resolve target = some number → ledger.maker number = session.current
  snapshots : ∀ label classes, operation.snapshot? = some label →
    session.snapshots.lookup label = some classes → ledger.taker label = some session.current

/-- The sessions that come to be when no class object of one registry is passed to another. -/
inductive Separate : Session → Ledger → Prop
  | start (files : FileTree) : Separate (start files) .blank
  | step {session : Session} {ledger : Ledger} (operation : Operation)
      (own : session.Own ledger operation) :
      Separate session ledger → Separate (session.step operation).2 (ledger.after session operation)

theorem Separate.reachable {session : Session} {ledger : Ledger}
    (separate : session.Separate ledger) : session.Reachable := by
  induction separate with
  | start files => exact .start files
  | step operation _ _ ih => exact .step operation ih

/-- The session with another registry as the current one. -/
def turned (session : Session) (number : Nat) : Session := { session with current := number }

/-- What the registry alone holds and keeps in snapshots is what it does among others. -/
structure HoldsBeside (ledger : Ledger) (number : Nat) (place : Nat → Nat) (alone joint : Session) :
    Prop where
  unheld : ∀ label, joint.held.lookup label = none → alone.held.lookup label = none
  held : ∀ label classNumber, joint.held.lookup label = some classNumber →
    ledger.maker classNumber = number → (alone.held.lookup label).map place = some classNumber
  untaken : ∀ label, joint.snapshots.lookup label = none → alone.snapshots.lookup label = none
  taken : ∀ label, ledger.taker label = some number →
    joint.snapshots.lookup label =
      (alone.snapshots.lookup label).map fun classes => classes.map fun _ => place

namespace HoldsBeside

variable {ledger : Ledger} {number : Nat} {place : Nat → Nat} {alone joint : Session}

theorem hold (holds : HoldsBeside ledger number place alone joint) (label : String)
    (classNumber : Nat) :
    HoldsBeside ledger number place
      { alone with held := (label, classNumber) :: alone.held }
      { joint with held := (label, place classNumber) :: joint.held } := by
  refine ⟨?_, ?_, holds.untaken, holds.taken⟩
  · intro other absent
    obtain ⟨apart, still⟩ := lookup_cons_eq_none absent
    rw [lookup_cons_of_ne apart]
    exact holds.unheld other still
  · intro other found told made
    by_cases same : other = label
    · rw [same, List.lookup_cons_self] at told ⊢
      exact told
    · rw [lookup_cons_of_ne same] at told ⊢
      exact holds.held other found told made

/-- What is held for others is another's object. -/
theorem hold_other (holds : HoldsBeside ledger number place alone joint) (label : String)
    {classNumber : ClassNumber} (apart : ledger.maker classNumber ≠ number) :
    HoldsBeside ledger number place alone
      { joint with held := (label, classNumber) :: joint.held } := by
  refine ⟨?_, ?_, holds.untaken, holds.taken⟩
  · intro other absent
    exact holds.unheld other (lookup_cons_eq_none absent).2
  · intro other found told made
    by_cases same : other = label
    · rw [same, List.lookup_cons_self] at told
      rw [← Option.some.inj told] at made
      exact absurd made apart
    · rw [lookup_cons_of_ne same] at told
      exact holds.held other found told made

theorem take (holds : HoldsBeside ledger number place alone joint) (label : String)
    (classes : ClassMap) :
    HoldsBeside { ledger with taker := Function.update ledger.taker label (some number) } number
      place
      { alone with snapshots := (label, classes) :: alone.snapshots }
      { joint with snapshots := (label, classes.map fun _ => place) :: joint.snapshots } := by
  refine ⟨holds.unheld, holds.held, ?_, ?_⟩
  · intro other absent
    obtain ⟨apart, still⟩ := lookup_cons_eq_none absent
    rw [lookup_cons_of_ne apart]
    exact holds.untaken other still
  · intro other taken
    by_cases same : other = label
    · rw [same, List.lookup_cons_self, List.lookup_cons_self, Option.map_some]
    · rw [lookup_cons_of_ne same, lookup_cons_of_ne same]
      have known : Function.update ledger.taker label (some number) other = some number := taken
      rw [Function.update_of_ne same] at known
      exact holds.taken other known

/-- A label under which others take a snapshot is theirs. -/
theorem take_other (holds : HoldsBeside ledger number place alone joint) {label : String}
    (classes : ClassMap) (apart : ledger.taker label ≠ some number) :
    HoldsBeside ledger number place alone
      { joint with snapshots := (label, classes) :: joint.snapshots } := by
  refine ⟨holds.unheld, holds.held, ?_, ?_⟩
  · intro other absent
    exact holds.untaken other (lookup_cons_eq_none absent).2
  · intro other taken
    by_cases same : other = label
    · rw [same] at taken
      exact absurd taken apart
    · rw [lookup_cons_of_ne same]
      exact holds.taken other taken

/-- What is entered in the ledger since is about other objects and other snapshots. -/
theorem later (holds : HoldsBeside ledger number place alone joint) (holders : joint.HoldersKept)
    {other : Ledger}
    (makers : ∀ classNumber, classNumber < joint.objects.size →
      other.maker classNumber = ledger.maker classNumber)
    (takers : ∀ label, other.taker label = some number → ledger.taker label = some number) :
    HoldsBeside other number place alone joint := by
  refine ⟨holds.unheld, ?_, holds.untaken, fun label taken => holds.taken label (takers label taken)⟩
  intro label classNumber told made
  have inside := holders.held label classNumber (mem_of_lookup told)
  rw [makers classNumber inside] at made
  exact holds.held label classNumber told made

end HoldsBeside

/-- A registry alone goes on beside the one among others: over the same files it is the same but for
the places of its objects. -/
structure Beside (ledger : Ledger) (number : Nat) (place : Nat → Nat) (alone joint : Session) :
    Prop extends HoldsBeside ledger number place alone joint where
  files : alone.files = joint.files
  inside : alone.current < alone.registries.size
  there : number < joint.registries.size
  mirrors : alone.catalog.Mirrors place (joint.turned number).catalog
  increasing : StrictMono place
  made : ∀ classNumber, classNumber < alone.objects.size →
    ledger.maker (place classNumber) = number

/-- Both answer alike and go on side by side. -/
def Agree (ledger : Ledger) (number : Nat) (place : Nat → Nat) (alone joint : Answer × Session) :
    Prop :=
  alone.1 = joint.1 ∧ Beside ledger number place alone.2 joint.2

section Beside

variable {ledger : Ledger} {place : Nat → Nat} {alone joint : Session}

theorem Beside.registry (beside : Beside ledger joint.current place alone joint) :
    joint.registry = alone.registry.placed place :=
  beside.mirrors.registry

theorem Beside.located (beside : Beside ledger joint.current place alone joint) :
    Located place alone.objects joint.objects :=
  beside.mirrors.located

theorem Beside.currentListing (beside : Beside ledger joint.current place alone joint) :
    alone.currentListing = joint.currentListing := by
  rw [Session.currentListing, Session.currentListing, beside.registry,
    Registry.resourceKeys_placed, Registry.classNames_placed]

/-- A target that may be passed to the registry tells the same object, at its place. -/
theorem Beside.resolve (beside : Beside ledger joint.current place alone joint) {target : Target}
    (objects : ∀ number, joint.resolve target = some number →
      ledger.maker number = joint.current)
    (snapshots : ∀ label name classes, target = .inSnapshot label name →
      joint.snapshots.lookup label = some classes → ledger.taker label = some joint.current) :
    joint.resolve target = (alone.resolve target).map place := by
  cases target with
  | held label =>
      change joint.held.lookup label = (alone.held.lookup label).map place
      cases found : joint.held.lookup label with
      | none => rw [beside.unheld label found, Option.map_none]
      | some number => rw [beside.held label number found (objects number found)]
  | named name =>
      change joint.registry.classes[name]? = (alone.registry.classes[name]?).map place
      rw [beside.registry, Registry.getElem?_placed]
  | inSnapshot label name =>
      unfold Session.resolve
      dsimp only
      cases found : joint.snapshots.lookup label with
      | none => rw [beside.untaken label found, Option.bind_none, Option.map_none]
      | some classes =>
          have taken := beside.taken label (snapshots label name classes rfl found)
          rw [found] at taken
          cases known : alone.snapshots.lookup label with
          | none =>
              rw [known] at taken
              cases taken
          | some own =>
              rw [known] at taken
              rw [Option.some.inj taken]
              exact Std.ExtTreeMap.getElem?_map

theorem Beside.object? (beside : Beside ledger joint.current place alone joint) {target : Target}
    (told : joint.resolve target = (alone.resolve target).map place) :
    alone.object? target = joint.object? target := by
  unfold Session.object?
  rw [told]
  cases alone.resolve target with
  | none => rfl
  | some number => exact (beside.located.objects number).symm

theorem agree_asking (beside : Beside ledger joint.current place alone joint) {target : Target}
    (told : joint.resolve target = (alone.resolve target).map place)
    {answer otherAnswer : ClassObject → Answer} (same : answer = otherAnswer) :
    Agree ledger joint.current place (alone.asking target answer)
      (joint.asking target otherAnswer) := by
  unfold Agree
  rw [asking_session, asking_session]
  refine ⟨?_, beside⟩
  unfold asking
  rw [beside.object? told, same]
  split
  · rfl
  · rfl

theorem Beside.setObject (beside : Beside ledger joint.current place alone joint) (number : Nat)
    (object : ClassObject) :
    Beside ledger joint.current place (alone.setObject number object)
      (joint.setObject (place number) object) where
  toHoldsBeside := ⟨beside.unheld, beside.held, beside.untaken, beside.taken⟩
  files := beside.files
  inside := beside.inside
  there := beside.there
  mirrors := ⟨beside.registry, beside.located.set beside.increasing number object⟩
  increasing := beside.increasing
  made classNumber small := by
    apply beside.made
    rwa [Session.setObject, Array.size_setIfInBounds] at small

theorem agree_changing (beside : Beside ledger joint.current place alone joint) {target : Target}
    (told : joint.resolve target = (alone.resolve target).map place)
    {change otherChange : ClassObject → Answer × ClassObject} (same : change = otherChange) :
    Agree ledger joint.current place (alone.changing target change)
      (joint.changing target otherChange) := by
  unfold changing
  rw [told, ← same]
  cases alone.resolve target with
  | none => exact ⟨rfl, beside⟩
  | some number =>
      have found := beside.located.objects number
      dsimp only [Option.map_some]
      rw [found]
      cases alone.objects[number]? with
      | none => exact ⟨rfl, beside⟩
      | some object => exact ⟨rfl, beside.setObject number _⟩

/-- New objects get their places by themselves. -/
theorem Beside.setCatalog (beside : Beside ledger joint.current place alone joint)
    (fresh : ∀ number, joint.objects.size ≤ number → ledger.maker number = joint.current)
    {after other : Catalog} (mirrors : after.Mirrors place other) :
    Beside ledger joint.current place (alone.setCatalog after) (joint.setCatalog other) where
  toHoldsBeside := ⟨beside.unheld, beside.held, beside.untaken, beside.taken⟩
  files := beside.files
  inside := by
    change alone.current < (alone.registries.setIfInBounds _ _).size
    rw [Array.size_setIfInBounds]
    exact beside.inside
  there := by
    change joint.current < (joint.registries.setIfInBounds _ _).size
    rw [Array.size_setIfInBounds]
    exact beside.there
  mirrors := by
    have one := catalog_setCatalog (getElem?_current beside.inside) after
    have two := catalog_setCatalog (getElem?_current beside.there) other
    change Catalog.Mirrors place (alone.setCatalog after).catalog (joint.setCatalog other).catalog
    rw [one, two]
    exact mirrors
  increasing := beside.increasing
  made classNumber _ := by
    by_cases small : classNumber < alone.objects.size
    · exact beside.made classNumber small
    · apply fresh
      rw [← beside.located.next_zero]
      exact beside.increasing.monotone (by omega)

theorem Beside.listing_setCatalog (beside : Beside ledger joint.current place alone joint)
    (fresh : ∀ number, joint.objects.size ≤ number → ledger.maker number = joint.current)
    {after other : Catalog} (mirrors : after.Mirrors place other) :
    (alone.setCatalog after).currentListing = (joint.setCatalog other).currentListing := by
  have later : Beside ledger (joint.setCatalog other).current place (alone.setCatalog after)
      (joint.setCatalog other) := beside.setCatalog fresh mirrors
  exact later.currentListing

theorem agree_runScan (beside : Beside ledger joint.current place alone joint)
    (fresh : ∀ number, joint.objects.size ≤ number → ledger.maker number = joint.current)
    {step otherStep : Scan Unit} (mirrored : Scan.Mirrored place step) (same : step = otherStep) :
    Agree ledger joint.current place (alone.runScan step) (joint.runScan otherStep) := by
  have alike := mirrored alone.catalog joint.catalog beside.mirrors
  unfold runScan
  rw [← same]
  generalize step alone.catalog = first at alike
  generalize step joint.catalog = second at alike
  cases alike with
  | ok mirrors =>
      exact ⟨congrArg (Answer.finished (.ok ())) (beside.listing_setCatalog fresh mirrors),
        beside.setCatalog fresh mirrors⟩
  | error mirrors =>
      exact ⟨congrArg (Answer.finished (.error _)) (beside.listing_setCatalog fresh mirrors),
        beside.setCatalog fresh mirrors⟩

theorem agree_close (beside : Beside ledger joint.current place alone joint)
    (fresh : ∀ number, joint.objects.size ≤ number → ledger.maker number = joint.current) :
    Agree ledger joint.current place (alone.step .close) (joint.step .close) := by
  have mirrors : Catalog.Mirrors place ⟨alone.registry.close.2, alone.objects⟩
      ⟨joint.registry.close.2, joint.objects⟩ := by
    refine ⟨?_, beside.located⟩
    rw [beside.registry, Registry.close_placed]
  have outcomes : alone.registry.close.1 = joint.registry.close.1 := by
    rw [beside.registry, Registry.close_placed]
  have listings := beside.listing_setCatalog fresh mirrors
  exact ⟨congrArg₂ Answer.finished outcomes listings, beside.setCatalog fresh mirrors⟩

theorem agree_hold (beside : Beside ledger joint.current place alone joint) {target : Target}
    (told : joint.resolve target = (alone.resolve target).map place) (label : String) :
    Agree ledger joint.current place (alone.step (.hold target label))
      (joint.step (.hold target label)) := by
  unfold Session.step
  dsimp only
  rw [told]
  cases alone.resolve target with
  | none => exact ⟨rfl, beside⟩
  | some number =>
      exact ⟨rfl, beside.toHoldsBeside.hold label number, beside.files, beside.inside, beside.there,
        beside.mirrors, beside.increasing, beside.made⟩

theorem agree_takeSnapshot (beside : Beside ledger joint.current place alone joint)
    (label : String) :
    Agree { ledger with taker := Function.update ledger.taker label (some joint.current) }
      joint.current place (alone.step (.takeSnapshot label)) (joint.step (.takeSnapshot label)) := by
  refine ⟨rfl, ?_, beside.files, beside.inside, beside.there, beside.mirrors, beside.increasing,
    beside.made⟩
  unfold Session.step
  dsimp only
  rw [beside.registry]
  exact beside.toHoldsBeside.take label alone.registry.classes

theorem agree_snapshotClasses (beside : Beside ledger joint.current place alone joint)
    {label : String} (own : ∀ classes, joint.snapshots.lookup label = some classes →
      ledger.taker label = some joint.current) :
    Agree ledger joint.current place (alone.step (.snapshotClasses label))
      (joint.step (.snapshotClasses label)) := by
  refine ⟨?_, beside⟩
  apply congrArg Answer.classes
  cases found : joint.snapshots.lookup label with
  | none => rw [beside.untaken label found, Option.map_none, Option.map_none]
  | some classes =>
      have taken := beside.taken label (own classes found)
      rw [← found, taken]
      cases alone.snapshots.lookup label with
      | none => rfl
      | some known => exact congrArg some (Registry.objectsOf_placed beside.located known).symm

/-- Files become others for all registries alike. -/
theorem Beside.refile {number : Nat} (beside : Beside ledger number place alone joint)
    (change : FileTree → FileTree) :
    Beside ledger number place { alone with files := change alone.files }
      { joint with files := change joint.files } where
  toHoldsBeside := ⟨beside.unheld, beside.held, beside.untaken, beside.taken⟩
  files := congrArg change beside.files
  inside := beside.inside
  there := beside.there
  mirrors := beside.mirrors
  increasing := beside.increasing
  made := beside.made

theorem Beside.later {number : Nat} (beside : Beside ledger number place alone joint)
    (holders : joint.HoldersKept) {other : Ledger}
    (makers : ∀ classNumber, classNumber < joint.objects.size →
      other.maker classNumber = ledger.maker classNumber)
    (takers : ∀ label, other.taker label = some number → ledger.taker label = some number) :
    Beside other number place alone joint where
  toHoldsBeside := beside.toHoldsBeside.later holders makers takers
  files := beside.files
  inside := beside.inside
  there := beside.there
  mirrors := beside.mirrors
  increasing := beside.increasing
  made classNumber small := by
    rw [makers _ (beside.mirrors.located.place_lt beside.increasing small)]
    exact beside.made classNumber small

end Beside

section Step

variable {ledger : Ledger} {number : Nat} {place : Nat → Nat} {alone joint : Session}
  {operation : Operation}

theorem snapshot?_of_target {label name : String}
    (passed : operation.target? = some (.inSnapshot label name)) :
    operation.snapshot? = some label := by
  cases operation <;> simp_all [Operation.target?, Operation.snapshot?]

theorem Own.told (own : joint.Own ledger operation)
    (beside : Beside ledger joint.current place alone joint) {target : Target}
    (passed : operation.target? = some target) :
    joint.resolve target = (alone.resolve target).map place := by
  apply beside.resolve
  · exact fun classNumber told => own.objects target classNumber passed told
  · intro label name classes same found
    rw [same] at passed
    exact own.snapshots label classes (snapshot?_of_target passed) found

theorem maker_after_of_lt {classNumber : Nat} (inside : classNumber < joint.objects.size) :
    (ledger.after joint operation).maker classNumber = ledger.maker classNumber :=
  if_pos inside

theorem maker_after_of_le {classNumber : Nat} (behind : joint.objects.size ≤ classNumber) :
    (ledger.after joint operation).maker classNumber = joint.current :=
  if_neg (Nat.not_lt_of_le behind)

/-- What is asked of the registry is answered as it is by the registry alone. -/
theorem step_agree (beside : Beside ledger joint.current place alone joint)
    (reachable : joint.Reachable) (own : joint.Own ledger operation)
    (asks : operation.chooses = false) :
    Agree (ledger.after joint operation) joint.current place (alone.step operation)
      (joint.step operation) := by
  have told {target : Target} (passed : operation.target? = some target) :=
    own.told beside passed
  have snapshots := own.snapshots
  -- The ledger once the operation has been entered, but for the snapshot that is taken.
  let entered : Ledger := { ledger.after joint operation with taker := ledger.taker }
  have renewed : Beside entered joint.current place alone joint :=
    beside.later reachable.holdersKept (fun _ inside => if_pos inside) fun _ taken => taken
  have fresh (classNumber : Nat) (behind : joint.objects.size ≤ classNumber) :
      entered.maker classNumber = joint.current :=
    if_neg (Nat.not_lt_of_le behind)
  have registry := renewed.registry
  have files := renewed.files
  cases operation with
  | addRegistry walker => cases asks
  | useRegistry number => cases asks
  | writeFile path content => exact ⟨rfl, renewed.refile (·.write path content)⟩
  | removeFile path => exact ⟨rfl, renewed.refile (·.remove path)⟩
  | scan path counted =>
      exact agree_runScan renewed fresh (Scan.mirrored_scan alone.files counted path)
        (by rw [files])
  | reload =>
      exact agree_runScan renewed fresh (Scan.mirrored_reload alone.files) (by rw [files])
  | close => exact agree_close renewed fresh
  | listing => exact ⟨congrArg Answer.listing renewed.currentListing, renewed⟩
  | classes =>
      refine ⟨congrArg (fun objects => Answer.classes (some objects)) ?_, renewed⟩
      rw [registry]
      exact (Registry.objectsOf_placed renewed.located alone.registry.classes).symm
  | findClass target => exact ⟨congrArg Answer.found (renewed.object? (told rfl)), renewed⟩
  | hold target label => exact agree_hold renewed (told rfl) label
  | takeSnapshot label => exact agree_takeSnapshot renewed label
  | snapshotClasses label =>
      exact agree_snapshotClasses renewed fun classes found => snapshots label classes rfl found
  | readClass name =>
      refine ⟨congrArg Answer.bytes ?_, renewed⟩
      rw [registry, Registry.readClass_placed renewed.located, files]
  | readResource key =>
      refine ⟨congrArg Answer.bytes ?_, renewed⟩
      rw [registry, files]
      rfl
  | openResource key =>
      refine ⟨congrArg Answer.bytes ?_, renewed⟩
      rw [registry, files]
      rfl
  | readClassOf target =>
      apply agree_asking renewed (told rfl)
      rw [registry, files]
      rfl
  | readClassByName target =>
      apply agree_asking renewed (told rfl)
      simp only [registry, files, Registry.readClass_placed renewed.located]
  | releasePool target => exact agree_changing renewed (told rfl) rfl
  | keptPool target => exact agree_asking renewed (told rfl) rfl
  | poolOrLoad target =>
      apply agree_changing renewed (told rfl)
      rw [registry, files]
      rfl
  | loadPool target =>
      apply agree_asking renewed (told rfl)
      rw [registry, files]
      rfl
  | loadCode target name descriptor length =>
      apply agree_asking renewed (told rfl)
      rw [registry, files]
      rfl
  | methodCode target name descriptor =>
      apply agree_asking renewed (told rfl)
      rw [registry, files]
      rfl

end Step

end Session

end Classpath
