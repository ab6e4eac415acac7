import Classpath.Proofs.Registry.Contributions
import Classpath.Proofs.Session.Beside

/-!
Registries that share files and archives but no class objects. Main statement: what is asked of one
registry, among whatever is asked of others, is answered as if the registry were alone, and nothing
that is asked of another changes anything about it.
-/

set_option autoImplicit false

namespace Classpath

namespace Session

section Others

variable {ledger : Ledger} {number : Nat} {place : Nat → Nat} {alone joint : Session}
  {operation : Operation}

theorem step_registry_other {session : Session}
    (other : operation.chooses = true ∨ session.current ≠ number)
    (inside : number < session.registries.size) :
    (session.step operation).2.registries[number]? = session.registries[number]? := by
  have passes := session.step_passes operation
  have there := Array.getElem?_eq_getElem inside
  generalize (session.step operation).2 = later at passes
  cases passes with
  | keeps registries objects => rw [registries]
  | makes walker registries objects => rw [registries, there, getElem?_push_kept there]
  | closes archives keeps =>
      exact Array.getElem?_setIfInBounds_ne (other.resolve_left Bool.false_ne_true)
  | scans path own =>
      exact Array.getElem?_setIfInBounds_ne (other.resolve_left Bool.false_ne_true)
  | reloads => exact Array.getElem?_setIfInBounds_ne (other.resolve_left Bool.false_ne_true)

/-- Only what a registry is passed can be changed by it. -/
theorem Own.keeps_object (own : joint.Own ledger operation) (kept : joint.WellKept)
    (other : operation.chooses = true ∨ joint.current ≠ number) {classNumber : Nat}
    (inside : classNumber < joint.objects.size) (made : ledger.maker classNumber = number) :
    (joint.step operation).2.objects[classNumber]? = joint.objects[classNumber]? := by
  have there := Array.getElem?_eq_getElem inside
  rw [there]
  apply step_keeps_object kept there
  · intro asked
    obtain ⟨target, same, told⟩ := asked
    cases same
    have known := own.objects target classNumber rfl told
    exact other.resolve_left Bool.false_ne_true (known.symm.trans made)
  · intro asked
    obtain ⟨target, same, told⟩ := asked
    cases same
    have known := own.objects target classNumber rfl told
    exact other.resolve_left Bool.false_ne_true (known.symm.trans made)

theorem taker_of_after (other : operation.chooses = true ∨ joint.current ≠ number) {label : String}
    (taken : (ledger.after joint operation).taker label = some number) :
    ledger.taker label = some number := by
  cases operation with
  | takeSnapshot given =>
      have known : Function.update ledger.taker given (some joint.current) label = some number :=
        taken
      by_cases same : label = given
      · rw [same, Function.update_self] at known
        exact absurd (Option.some.inj known) (other.resolve_left Bool.false_ne_true)
      · rwa [Function.update_of_ne same] at known
  | _ => exact taken

theorem size_le_of_step (kept : joint.WellKept) :
    joint.objects.size ≤ (joint.step operation).2.objects.size := by
  apply Nat.le_of_not_lt
  intro fewer
  obtain ⟨after, there, _⟩ := (joint.step_passes operation).objects kept _ _
    (Array.getElem?_eq_getElem fewer)
  exact absurd (Array.getElem?_eq_some_iff.mp there).1 (Nat.lt_irrefl _)

theorem turned_registry {session later : Session}
    (same : later.registries[number]? = session.registries[number]?) :
    (later.turned number).registry = (session.turned number).registry := by
  change later.registries.getD number _ = session.registries.getD number _
  rw [Array.getD_eq_getD_getElem?, Array.getD_eq_getD_getElem?, same]

/-- Numbers that lead to objects of the registry lead there from their new places. -/
theorem HoldsBeside.relocate (holds : HoldsBeside ledger number place alone joint)
    (holders : alone.HoldersKept) (bound : Nat) :
    HoldsBeside ledger number (relocate place alone.objects.size bound) alone joint := by
  refine ⟨holds.unheld, ?_, holds.untaken, ?_⟩
  · intro label classNumber told made
    have known := holds.held label classNumber told made
    obtain ⟨own, held, placed⟩ := Option.map_eq_some_iff.mp known
    have inside := holders.held label own (mem_of_lookup held)
    rw [held, Option.map_some, relocate_of_lt inside, placed]
  · intro label taken
    rw [holds.taken label taken]
    cases found : alone.snapshots.lookup label with
    | none => rfl
    | some classes =>
        apply congrArg some
        apply Std.ExtTreeMap.ext_getElem?
        intro name
        rw [Std.ExtTreeMap.getElem?_map, Std.ExtTreeMap.getElem?_map]
        cases entered : classes[name]? with
        | none => rfl
        | some own =>
            obtain ⟨object, there, _⟩ :=
              holders.snapshots label classes (mem_of_lookup found) name own entered
            have inside := (Array.getElem?_eq_some_iff.mp there).1
            exact congrArg some (relocate_of_lt inside).symm

/-- Objects that are put into the joint store for others move only the places to come. -/
theorem Beside.relocate (beside : Beside ledger number place alone joint)
    (reachable : alone.Reachable) {registries : Array Registry} {objects : Array ClassObject}
    (sameRegistry : registries[number]? = joint.registries[number]?)
    (sameObjects : ∀ classNumber, classNumber < joint.objects.size →
      ledger.maker classNumber = number → objects[classNumber]? = joint.objects[classNumber]?)
    (grown : joint.objects.size ≤ objects.size) :
    Beside ledger number (relocate place alone.objects.size objects.size) alone
      { joint with registries, objects } := by
  have located := beside.mirrors.located
  have below (classNumber : Nat) (inside : classNumber < alone.objects.size) :=
    located.place_lt beside.increasing inside
  have holds := beside.toHoldsBeside.relocate reachable.holdersKept objects.size
  refine ⟨⟨holds.unheld, holds.held, holds.untaken, holds.taken⟩, beside.files, beside.inside, ?_,
    ⟨?_, ?_⟩, ?_, ?_⟩
  · have there := Array.getElem?_eq_getElem beside.there
    rw [← sameRegistry] at there
    exact (Array.getElem?_eq_some_iff.mp there).1
  · have registry : (joint.turned number).registry = alone.registry.placed place :=
      beside.mirrors.registry
    have moved : alone.registry.placed (Classpath.relocate place alone.objects.size objects.size) =
        alone.registry.placed place := by
      apply Registry.placed_congr
      intro name classNumber entered
      apply relocate_of_lt
      exact reachable.wellKept.number_lt (getElem?_current beside.inside) entered
    change (Session.turned { joint with registries, objects } number).registry =
      alone.registry.placed _
    rw [turned_registry sameRegistry, registry, moved]
  · apply located.relocate
    intro classNumber inside
    exact sameObjects _ (below classNumber inside) (beside.made classNumber inside)
  · apply relocate_strictMono beside.increasing
    intro classNumber inside
    exact Nat.lt_of_lt_of_le (below classNumber inside) grown
  · intro classNumber inside
    rw [relocate_of_lt inside]
    exact beside.made classNumber inside

theorem Beside.turn (beside : Beside ledger number place alone joint) (current : Nat) :
    Beside ledger number place alone { joint with current } where
  toHoldsBeside := ⟨beside.unheld, beside.held, beside.untaken, beside.taken⟩
  files := beside.files
  inside := beside.inside
  there := beside.there
  mirrors := beside.mirrors
  increasing := beside.increasing
  made := beside.made

/-- Nothing that is asked of another registry changes what goes on beside the one alone. -/
theorem Beside.step_other (beside : Beside ledger number place alone joint)
    (aloneReachable : alone.Reachable) (reachable : joint.Reachable)
    (own : joint.Own ledger operation)
    (other : operation.chooses = true ∨ joint.current ≠ number) :
    ∃ moved, Beside (ledger.after joint operation) number moved alone (joint.step operation).2 := by
  have renewed : Beside (ledger.after joint operation) number place alone joint :=
    beside.later reachable.holdersKept (fun _ inside => maker_after_of_lt inside)
      fun label taken => taker_of_after other taken
  have files := own.files
  have sameRegistry := step_registry_other other beside.there
  have sameObjects (classNumber : Nat) (inside : classNumber < joint.objects.size)
      (made : (ledger.after joint operation).maker classNumber = number) :=
    own.keeps_object reachable.wellKept other inside ((maker_after_of_lt inside).symm.trans made)
  have grown : joint.objects.size ≤ (joint.step operation).2.objects.size :=
    size_le_of_step reachable.wellKept
  have touched := joint.step_touches operation
  generalize (joint.step operation).2 = later at *
  cases touched with
  | classes registries objects =>
      exact ⟨_, renewed.relocate aloneReachable sameRegistry sameObjects grown⟩
  | turns registries current =>
      have moved := renewed.relocate aloneReachable sameRegistry sameObjects grown
      exact ⟨_, moved.turn current⟩
  | files changed =>
      change changed = joint.files at files
      subst files
      exact ⟨place, renewed⟩
  | holds target label classNumber told =>
      have inside := reachable.holdersKept.resolve_lt reachable.wellKept told
      have made := own.objects target classNumber rfl told
      have apart : (ledger.after joint (.hold target label)).maker classNumber ≠ number := by
        rw [maker_after_of_lt inside, made]
        exact other.resolve_left Bool.false_ne_true
      exact ⟨place, renewed.toHoldsBeside.hold_other label apart, renewed.files, renewed.inside,
        renewed.there, renewed.mirrors, renewed.increasing, renewed.made⟩
  | takes label =>
      have apart : (ledger.after joint (.takeSnapshot label)).taker label ≠ some number := by
        intro taken
        have known : Function.update ledger.taker label (some joint.current) label = some number :=
          taken
        rw [Function.update_self] at known
        exact other.resolve_left Bool.false_ne_true (Option.some.inj known)
      exact ⟨place, renewed.toHoldsBeside.take_other _ apart, renewed.files, renewed.inside,
        renewed.there, renewed.mirrors, renewed.increasing, renewed.made⟩

end Others

/-! The registry alone. -/

/-- A session with nothing but one empty registry. -/
def lone (files : FileTree) (walker : Option Walker) : Session :=
  ((start files).step (.addRegistry walker)).2

/-- All that one registry was asked is asked of one that is alone. -/
def Ledger.replay (ledger : Ledger) (number : Nat) (files : FileTree) (walker : Option Walker) :
    List Answer × Session :=
  (lone files walker).run ((ledger.asked number).map Prod.fst)

theorem run_cons (session : Session) (first : Operation) (rest : List Operation) :
    session.run (first :: rest) =
      ((session.step first).1 :: ((session.step first).2.run rest).1,
        ((session.step first).2.run rest).2) := rfl

theorem run_append (session : Session) (front back : List Operation) :
    session.run (front ++ back) =
      ((session.run front).1 ++ ((session.run front).2.run back).1,
        ((session.run front).2.run back).2) := by
  induction front generalizing session with
  | nil => rfl
  | cons first rest ih => rw [List.cons_append, run_cons, ih, run_cons, List.cons_append]

theorem Reachable.run {session : Session} (reachable : session.Reachable)
    (operations : List Operation) : (session.run operations).2.Reachable := by
  induction operations generalizing session with
  | nil => exact reachable
  | cons first rest ih => exact ih (reachable.step first)

/-- The ledger tells of no registry that there is not. -/
structure Ledger.Bounded (ledger : Ledger) (session : Session) : Prop where
  makers : ∀ classNumber, classNumber < session.objects.size →
    ledger.maker classNumber < session.registries.size
  takers : ∀ label number, ledger.taker label = some number → number < session.registries.size
  asked : ∀ number, session.registries.size ≤ number → ledger.asked number = []

section Run

variable {session : Session} {ledger : Ledger} {operation : Operation} {number : Nat}

theorem size_registries_le (session : Session) (operation : Operation) :
    session.registries.size ≤ (session.step operation).2.registries.size := by
  have passes := session.step_passes operation
  generalize (session.step operation).2 = later at passes
  cases passes with
  | keeps registries objects => exact Nat.le_of_eq (congrArg Array.size registries).symm
  | makes walker registries objects =>
      rw [registries, Array.size_push]
      exact Nat.le_succ _
  | closes archives keeps => exact Nat.le_of_eq Array.size_setIfInBounds.symm
  | scans path own => exact Nat.le_of_eq Array.size_setIfInBounds.symm
  | reloads => exact Nat.le_of_eq Array.size_setIfInBounds.symm

theorem objects_of_chooses (chooses : operation.chooses = true) :
    (session.step operation).2.objects = session.objects := by
  cases operation with
  | addRegistry walker => rfl
  | useRegistry number => rfl
  | _ => cases chooses

theorem asked_after_other (other : operation.chooses = true ∨ session.current ≠ number) :
    (ledger.after session operation).asked number = ledger.asked number := by
  unfold Ledger.after
  dsimp only
  split
  · rfl
  · rename_i asks
    exact Function.update_of_ne (other.resolve_left asks).symm _ _

theorem asked_after_current (asks : operation.chooses = false) :
    (ledger.after session operation).asked session.current =
      ledger.asked session.current ++ [(operation, (session.step operation).1)] := by
  unfold Ledger.after
  simp only [asks, Bool.false_eq_true, if_false, Function.update_self]

theorem Ledger.Bounded.step (bounded : ledger.Bounded session)
    (own : session.Own ledger operation) :
    (ledger.after session operation).Bounded (session.step operation).2 := by
  have grown := session.size_registries_le operation
  constructor
  · intro classNumber inside
    apply Nat.lt_of_lt_of_le _ grown
    by_cases old : classNumber < session.objects.size
    · rw [maker_after_of_lt old]
      exact bounded.makers classNumber old
    · rw [maker_after_of_le (Nat.le_of_not_lt old)]
      apply own.there
      apply Bool.eq_false_iff.mpr
      intro chooses
      rw [objects_of_chooses chooses] at inside
      exact old inside
  · intro label taker taken
    apply Nat.lt_of_lt_of_le _ grown
    by_cases mine : operation.chooses = false ∧ session.current = taker
    · exact mine.2 ▸ own.there mine.1
    · apply bounded.takers label
      apply taker_of_after _ taken
      by_cases chooses : operation.chooses = true
      · exact Or.inl chooses
      · exact Or.inr fun same => mine ⟨Bool.eq_false_iff.mpr chooses, same⟩
  · intro absent beyond
    rw [asked_after_other, bounded.asked absent (Nat.le_trans grown beyond)]
    by_cases chooses : operation.chooses = true
    · exact Or.inl chooses
    · have inside := own.there (Bool.eq_false_iff.mpr chooses)
      exact Or.inr (by omega)

theorem Separate.bounded (separate : session.Separate ledger) : ledger.Bounded session := by
  induction separate with
  | start files => exact ⟨nofun, nofun, fun _ _ => rfl⟩
  | step operation own _ ih => exact ih.step own

/-- A registry that is not there before an operation is the one that the operation makes. -/
theorem exists_newRegistry (absent : session.registries.size ≤ number)
    (there : number < (session.step operation).2.registries.size) :
    number = session.registries.size ∧ ∃ walker, operation = .addRegistry walker := by
  have passes := session.step_passes operation
  generalize (session.step operation).2 = later at passes there
  cases passes with
  | keeps registries objects =>
      rw [registries] at there
      omega
  | makes walker registries objects =>
      rw [registries, Array.size_push] at there
      exact ⟨by omega, walker, rfl⟩
  | closes archives keeps =>
      change number < (session.registries.setIfInBounds _ _).size at there
      rw [Array.size_setIfInBounds] at there
      omega
  | scans path own =>
      change number < (session.registries.setIfInBounds _ _).size at there
      rw [Array.size_setIfInBounds] at there
      omega
  | reloads =>
      change number < (session.registries.setIfInBounds _ _).size at there
      rw [Array.size_setIfInBounds] at there
      omega

theorem beside_newRegistry (bounded : ledger.Bounded session) (reachable : session.Reachable)
    (walker : Option Walker) :
    Beside (ledger.after session (.addRegistry walker)) session.registries.size
      (session.objects.size + ·) (lone session.files walker)
      (session.step (.addRegistry walker)).2 := by
  refine ⟨⟨fun _ _ => rfl, ?_, fun _ _ => rfl, ?_⟩, rfl, Nat.zero_lt_one, ?_, ⟨?_, ?_⟩, ?_, nofun⟩
  · intro label classNumber told made
    have inside := reachable.holdersKept.held label classNumber (mem_of_lookup told)
    rw [maker_after_of_lt inside] at made
    exact absurd (bounded.makers classNumber inside) (made ▸ Nat.lt_irrefl _)
  · intro label taken
    exact absurd (bounded.takers label _ taken) (Nat.lt_irrefl _)
  · change session.registries.size < (session.registries.push _).size
    rw [Array.size_push]
    exact Nat.lt_succ_self _
  · change (session.registries.push (Registry.empty walker)).getD session.registries.size _ =
      (Registry.empty walker).placed _
    rw [Array.getD_eq_getD_getElem?, Array.getElem?_push_size, Registry.empty_placed]
    rfl
  · constructor
    · intro offset
      change session.objects[session.objects.size + offset]? = (#[] : Array ClassObject)[offset]?
      rw [Array.getElem?_eq_none (by omega), Array.getElem?_eq_none (Nat.zero_le _)]
    · intro offset
      change session.objects.size + (0 + offset) = session.objects.size + offset
      rw [Nat.zero_add]
  · intro first second less
    exact Nat.add_lt_add_left less _

theorem Passes.keepsWalks {later : Session} (passes : session.Passes operation later)
    (kept : session.WellKept) {registry : Registry}
    (there : session.registries[number]? = some registry) :
    ∃ after, later.registries[number]? = some after ∧ after.walker = registry.walker := by
  let related (before after : Registry) : Prop := after.walker = before.walker
  have same (found : Registry) : related found found := rfl
  cases passes with
  | keeps registries objects => exact ⟨registry, registries ▸ there, rfl⟩
  | makes walker registries objects => exact ⟨registry, registries ▸ getElem?_push_kept there, rfl⟩
  | closes archives keeps =>
      have changed : related session.registry { session.registry with archives } := rfl
      exact setRegistry_related related same changed there
  | scans path own =>
      have grown := Scan.growing_scan session.files path own session.catalog kept.catalog
      exact setRegistry_related related same (Catalog.Grows.walker grown) there
  | reloads =>
      apply setRegistry_related related same _ there
      rcases Catalog.reload_left session.files session.catalog with unchanged | ⟨reread, _, swapped⟩
      · rw [unchanged]
        rfl
      · rw [swapped]
        rfl

/-- What a registry was asked, asked of one that is alone, is answered in the same way, and both go
on side by side. By induction on the run: an operation is asked of the registry itself, or of
another, or makes the registry. -/
theorem Separate.beside (separate : session.Separate ledger) {registry : Registry}
    (there : session.registries[number]? = some registry) :
    (ledger.replay number session.files registry.walker).1 = (ledger.asked number).map Prod.snd ∧
    ∃ place, Beside ledger number place (ledger.replay number session.files registry.walker).2
      session := by
  unfold Ledger.replay
  induction separate generalizing registry with
  | start files =>
      change (#[] : Array Registry)[number]? = some registry at there
      simp at there
  | @step session ledger operation own separate ih =>
      have reachable := separate.reachable
      rw [own.files]
      by_cases old : number < session.registries.size
      · have known := Array.getElem?_eq_getElem old
        obtain ⟨after, afterThere, walker⟩ :=
          (session.step_passes operation).keepsWalks reachable.wellKept known
        have one : after = registry := Option.some.inj (afterThere.symm.trans there)
        rw [← one, walker]
        obtain ⟨answers, place, beside⟩ := ih known
        have fresh : (lone session.files session.registries[number].walker).Reachable :=
          .step _ (.start _)
        generalize lone session.files session.registries[number].walker = alone
          at answers beside fresh ⊢
        by_cases mine : operation.chooses = false ∧ session.current = number
        · obtain ⟨asks, current⟩ := mine
          subst current
          obtain ⟨answer, later⟩ := step_agree beside reachable own asks
          rw [asked_after_current asks, List.map_append, List.map_append, run_append, answers]
          refine ⟨?_, place, later⟩
          exact congrArg (_ ++ [·]) answer
        · have other : operation.chooses = true ∨ session.current ≠ number := by
            by_cases chooses : operation.chooses = true
            · exact Or.inl chooses
            · exact Or.inr fun same => mine ⟨Bool.eq_false_iff.mpr chooses, same⟩
          rw [asked_after_other other]
          exact ⟨answers, beside.step_other (fresh.run _) reachable own other⟩
      · have inside := (Array.getElem?_eq_some_iff.mp there).1
        obtain ⟨rfl, walker, rfl⟩ := exists_newRegistry (Nat.le_of_not_lt old) inside
        have made : (session.registries.push (Registry.empty walker))[session.registries.size]? =
            some registry := there
        rw [Array.getElem?_push_size] at made
        rw [asked_after_other (Or.inl rfl), separate.bounded.asked _ (Nat.le_refl _),
          ← Option.some.inj made]
        exact ⟨rfl, _, beside_newRegistry separate.bounded reachable walker⟩

/-- The same keys and classes, with the same behind them. -/
structure ShowsAlike (first second : Session) : Prop where
  resourceKeys : first.registry.resourceKeys = second.registry.resourceKeys
  classNames : first.registry.classNames = second.registry.classNames
  classes : ∀ name, first.registry.class? first.objects name =
    second.registry.class? second.objects name
  readResource : ∀ key, first.registry.readResource first.files key =
    second.registry.readResource second.files key
  openResource : ∀ key, first.registry.openResource first.files key =
    second.registry.openResource second.files key
  readClass : ∀ name, first.registry.readClass first.files first.objects name =
    second.registry.readClass second.files second.objects name

theorem Beside.showsAlike {place : Nat → Nat} {alone joint : Session}
    (beside : Beside ledger number place alone joint) : alone.ShowsAlike (joint.turned number) := by
  have registry : (joint.turned number).registry = alone.registry.placed place :=
    beside.mirrors.registry
  have located : Located place alone.objects (joint.turned number).objects :=
    beside.mirrors.located
  have files : alone.files = (joint.turned number).files := beside.files
  constructor
  · rw [registry, Registry.resourceKeys_placed]
  · rw [registry, Registry.classNames_placed]
  · intro name
    rw [registry, Registry.class?_placed located]
  · intro key
    rw [registry, files]
    rfl
  · intro key
    rw [registry, files]
    rfl
  · intro name
    rw [registry, files, Registry.readClass_placed located]

theorem ShowsAlike.trans {first second third : Session} (front : first.ShowsAlike second)
    (back : second.ShowsAlike third) : first.ShowsAlike third where
  resourceKeys := front.resourceKeys.trans back.resourceKeys
  classNames := front.classNames.trans back.classNames
  classes name := (front.classes name).trans (back.classes name)
  readResource key := (front.readResource key).trans (back.readResource key)
  openResource key := (front.openResource key).trans (back.openResource key)
  readClass name := (front.readClass name).trans (back.readClass name)

theorem ShowsAlike.symm {first second : Session} (alike : first.ShowsAlike second) :
    second.ShowsAlike first where
  resourceKeys := alike.resourceKeys.symm
  classNames := alike.classNames.symm
  classes name := (alike.classes name).symm
  readResource key := (alike.readResource key).symm
  openResource key := (alike.openResource key).symm
  readClass name := (alike.readClass name).symm

/-- In any session in which no class object of one registry was passed to another: each registry has
answered whatever it was asked as it does alone, and shows what it does alone. Nothing that is asked
of another changes the registry, what it shows, or an object that was made in it. -/
theorem registries_independent (separate : session.Separate ledger) {registry : Registry}
    (there : session.registries[number]? = some registry) :
    (ledger.replay number session.files registry.walker).1 = (ledger.asked number).map Prod.snd ∧
    (ledger.replay number session.files registry.walker).2.ShowsAlike (session.turned number) ∧
    ∀ operation, session.Own ledger operation →
      (operation.chooses = true ∨ session.current ≠ number) →
      (session.step operation).2.registries[number]? = some registry ∧
      (session.turned number).ShowsAlike ((session.step operation).2.turned number) ∧
      ∀ classNumber, classNumber < session.objects.size → ledger.maker classNumber = number →
        (session.step operation).2.objects[classNumber]? = session.objects[classNumber]? := by
  obtain ⟨answers, place, beside⟩ := separate.beside there
  refine ⟨answers, beside.showsAlike, ?_⟩
  intro operation own other
  have reachable := separate.reachable
  have alone : (lone session.files registry.walker).Reachable := .step _ (.start _)
  obtain ⟨moved, still⟩ := beside.step_other (alone.run _) reachable own other
  refine ⟨?_, beside.showsAlike.symm.trans still.showsAlike, ?_⟩
  · exact (step_registry_other other beside.there).trans there
  · intro classNumber inside made
    exact own.keeps_object reachable.wellKept other inside made

end Run

/-- A session in which a second registry has been made once the first has scanned the archive. -/
def rejoined : Session := (archived.step (.newRegistry false)).2

/-- A session in which both registries have scanned the archive. -/
def shared : Session := (rejoined.step (.scan "a.jar" true)).2

theorem files_step_scan (session : Session) (path : Path.Text) (own : Bool) :
    (session.step (.scan path own)).2.files = session.files := by
  change (session.runScan _).2.files = _
  rw [runScan_eq]
  rfl

theorem size_registries_step_scan (session : Session) (path : Path.Text) (own : Bool) :
    (session.step (.scan path own)).2.registries.size = session.registries.size := by
  change (session.runScan _).2.registries.size = _
  rw [runScan_eq]
  exact Array.size_setIfInBounds

theorem own_scan {session : Session} (there : session.current < session.registries.size)
    (ledger : Ledger) (path : Path.Text) (own : Bool) : session.Own ledger (.scan path own) :=
  ⟨fun _ => there, session.files_step_scan path own, nofun, nofun⟩

theorem current_lt_scan {session : Session} (inside : session.current < session.registries.size)
    (path : Path.Text) (own : Bool) :
    (session.step (.scan path own)).2.current <
      (session.step (.scan path own)).2.registries.size := by
  rw [current_scan, size_registries_step_scan]
  exact inside

theorem own_close {session : Session} (there : session.current < session.registries.size)
    (ledger : Ledger) : session.Own ledger .close :=
  ⟨fun _ => there, rfl, nofun, nofun⟩

theorem current_step_newRegistry (session : Session) (walker : Option Walker) :
    (session.step (.addRegistry walker)).2.current = session.registries.size := rfl

theorem current_lt_newRegistry (session : Session) (walker : Option Walker) :
    (session.step (.addRegistry walker)).2.current <
      (session.step (.addRegistry walker)).2.registries.size := by
  change session.registries.size < (session.registries.push _).size
  rw [Array.size_push]
  exact Nat.lt_succ_self _

theorem own_newRegistry (session : Session) (ledger : Ledger) (walker : Option Walker) :
    session.Own ledger (.addRegistry walker) :=
  ⟨nofun, rfl, nofun, nofun⟩

/-- Both registries have the archive open. When the second is closed, the first is as before, and it
answers as if there had never been another. -/
theorem registries_independent_specimen : ∃ ledger, shared.Separate ledger ∧
    shared.registries[0]? = some archived.registry ∧
    archived.registry.entries["n"]? = some (.member "a.jar" 0 0 "n") ∧
    (shared.step .close).2.registries[0]? = some archived.registry ∧
    (shared.turned 0).ShowsAlike ((shared.step .close).2.turned 0) ∧
    (ledger.asked 0).map Prod.fst = [.scan "a.jar" true] ∧
    (ledger.replay 0 shared.files archived.registry.walker).1 = (ledger.asked 0).map Prod.snd := by
  have sized : archived.registries.size = 1 := by
    unfold archived
    rw [size_registries_step_scan]
    rfl
  have current : archived.current = 0 := by
    unfold archived
    rw [current_scan]
    rfl
  have turned : rejoined.current ≠ 0 := by
    unfold rejoined
    rw [Operation.newRegistry, current_step_newRegistry, sized]
    exact Nat.one_ne_zero
  have inside : rejoined.current < rejoined.registries.size :=
    current_lt_newRegistry archived _
  have scanned : archived.Separate _ :=
    .step _ (own_scan Nat.zero_lt_one _ _ _) (.step _ (own_newRegistry _ _ _) (.start _))
  have separate : shared.Separate _ :=
    .step _ (own_scan inside _ _ _) (.step _ (own_newRegistry _ _ _) scanned)
  have first : archived.registries[0]? = some archived.registry := by
    have found := getElem?_current (sized ▸ current ▸ Nat.zero_lt_one)
    rwa [current] at found
  have kept : rejoined.registries[0]? = some archived.registry := getElem?_push_kept first
  have there : shared.registries[0]? = some archived.registry := by
    unfold shared
    rw [step_registry_other (Or.inr turned) (Array.getElem?_eq_some_iff.mp kept).1]
    exact kept
  have closable : shared.current < shared.registries.size := by
    unfold shared
    exact current_lt_scan inside "a.jar" true
  have apart : shared.current ≠ 0 := by
    unfold shared
    rw [current_scan]
    exact turned
  obtain ⟨answers, _, unmoved⟩ := registries_independent separate there
  obtain ⟨still, alike, _⟩ := unmoved .close (own_close closable _) (Or.inr apart)
  refine ⟨_, separate, there, archived_entries, still, alike, ?_, answers⟩
  rw [asked_after_other (Or.inr turned), asked_after_other (Or.inl rfl)]
  rfl

end Session

end Classpath
