import Mathlib.Logic.Function.Basic
import Classpath.Proofs.Registry.Closing
import Classpath.Proofs.Session.Tracing

/-!
Open archives over a whole session. Main statement: what can be read from archives is what was
registered since the registry was last closed; an archive that nothing is registered from is not
left open; and closing cuts off the members of archives and nothing else.
-/

set_option autoImplicit false

namespace Classpath

/-- What is known of a registry that had `floor` archives when it was last closed. -/
structure Registry.HandlesExact (floor : Nat) (registry : Registry) : Prop where
  /-- A member is in an archive that there is, and it can be read if that is from after closing. -/
  members : ∀ (key name : String) (path : Path.Text) (handle index : Nat),
    registry.entries[key]? = some (.member path handle index name) →
    (∃ archive, registry.archives[handle]? = some archive ∧ archive.path = path ∧
      (archive.isOpen = true ↔ floor ≤ handle)) ∧
    (floor ≤ handle → registry.ReadsAs key NotCutOff) ∧
    (handle < floor → registry.ReadsAs key (· = .error (.ofCause (.archiveClosed path))))
  files : ∀ key path, registry.entries[key]? = some (.file path) → registry.ReadsAs key NotCutOff
  /-- Nothing is cut off in a registry that was never closed. -/
  never : floor = 0 → ∀ key, registry.ReadsAs key NotCutOff
  unused : ∀ (handle : Nat) (archive : Archive), registry.archives[handle]? = some archive →
    ¬ registry.Uses handle → archive.isOpen = false

theorem Registry.HandlesKept.handlesExact {registry : Registry} {objects : Array ClassObject}
    {floor : Nat} (kept : registry.HandlesKept floor) (wellKept : registry.WellKept objects) :
    registry.HandlesExact floor := by
  constructor
  · intro key path name handle index entered
    refine ⟨kept.member wellKept entered, ?_, kept.readsAs_closed wellKept entered⟩
    intro lower
    apply kept.readsAs_open wellKept
    intro entry other there placed
    cases entered.symm.trans there
    cases placed
    exact lower
  · intro key path entered
    apply kept.readsAs_open wellKept
    intro entry handle there placed
    cases entered.symm.trans there
    cases placed
  · intro never key
    apply kept.readsAs_open wellKept
    intro entry handle _ _
    omega
  · intro handle archive there unused
    rw [Bool.eq_false_iff]
    intro isOpen
    exact unused ((kept.isOpen_iff handle archive there).mp isOpen).2

namespace Session

/-- The sessions that can come to be, with the number of archives that each registry had when it was
last closed. -/
inductive ClosedUpTo : Session → (Nat → Nat) → Prop
  | start (files : FileTree) : ClosedUpTo (start files) fun _ => 0
  | step {session : Session} {floor : Nat → Nat} (operation : Operation)
      (other : operation ≠ .close) :
      ClosedUpTo session floor → ClosedUpTo (session.step operation).2 floor
  | close {session : Session} {floor : Nat → Nat} :
      ClosedUpTo session floor → ClosedUpTo (session.step .close).2
        (Function.update floor session.current session.registry.archives.size)
  | refile {session : Session} {floor : Nat → Nat} (files : FileTree) :
      ClosedUpTo session floor → ClosedUpTo { session with files } floor

theorem ClosedUpTo.reachable {session : Session} {floor : Nat → Nat}
    (traced : session.ClosedUpTo floor) : session.Reachable := by
  induction traced with
  | start files => exact .start files
  | step operation _ _ ih => exact .step operation ih
  | close _ ih => exact .step .close ih
  | refile files _ ih => exact .refile files ih

theorem Reachable.exists_closedUpTo {session : Session} (reachable : session.Reachable) :
    ∃ floor, session.ClosedUpTo floor := by
  induction reachable with
  | start files => exact ⟨_, .start files⟩
  | step operation _ ih =>
      obtain ⟨floor, traced⟩ := ih
      by_cases closes : operation = .close
      · rw [closes]
        exact ⟨_, traced.close⟩
      · exact ⟨floor, traced.step operation closes⟩
  | refile files _ ih =>
      obtain ⟨floor, traced⟩ := ih
      exact ⟨floor, traced.refile files⟩

/-- The archives of each registry are as they should be, and one that is yet to be made was never
closed. -/
structure HandlesKept (floor : Nat → Nat) (session : Session) : Prop where
  registries : ∀ (number : Nat) (registry : Registry),
    session.registries[number]? = some registry → registry.HandlesKept (floor number)
  unmade : ∀ number, session.registries.size ≤ number → floor number = 0

section Kept

variable {session later : Session} {floor : Nat → Nat}

theorem HandlesKept.current (kept : session.HandlesKept floor) :
    session.registry.HandlesKept (floor session.current) := by
  by_cases inside : session.current < session.registries.size
  · exact kept.registries session.current session.registry (getElem?_current inside)
  · rw [registry_eq_empty (by omega), kept.unmade session.current (by omega)]
    exact .empty none

theorem HandlesKept.setRegistry (kept : session.HandlesKept floor) {registry : Registry}
    {limit : Nat} (changed : registry.HandlesKept limit)
    (fresh : session.registries.size ≤ session.current → limit = 0) :
    (session.setRegistry registry).HandlesKept (Function.update floor session.current limit) := by
  constructor
  · intro number found there
    rcases getElem?_setRegistry there with ⟨rfl, rfl, _⟩ | ⟨other, old⟩
    · rw [Function.update_self]
      exact changed
    · rw [Function.update_of_ne other]
      exact kept.registries number found old
  · intro number unmade
    change (session.registries.setIfInBounds session.current registry).size ≤ number at unmade
    rw [Array.size_setIfInBounds] at unmade
    by_cases current : number = session.current
    · rw [current, Function.update_self]
      exact fresh (current ▸ unmade)
    · rw [Function.update_of_ne current]
      exact kept.unmade number unmade

theorem HandlesKept.setCatalog (kept : session.HandlesKept floor) {catalog : Catalog}
    (changed : catalog.registry.HandlesKept (floor session.current)) :
    (session.setCatalog catalog).HandlesKept floor := by
  have set := kept.setRegistry changed (kept.unmade session.current)
  rw [Function.update_eq_self] at set
  exact ⟨set.registries, set.unmade⟩

/-- Reloading leaves entries and archives alone. -/
theorem handlesKept_reload {catalog : Catalog} {limit : Nat} (files : FileTree)
    (kept : catalog.registry.HandlesKept limit) :
    (Scan.left (Scan.reload files catalog)).registry.HandlesKept limit := by
  rcases Catalog.reload_left files catalog with same | ⟨reread, _, swapped⟩
  · rw [same]
    exact kept
  · rw [swapped]
    exact ⟨kept.floor_le, kept.isOpen_iff⟩

theorem Passes.handlesKept {operation : Operation} (passes : session.Passes operation later)
    (other : operation ≠ .close) (wellKept : session.WellKept)
    (kept : session.HandlesKept floor) : later.HandlesKept floor := by
  cases passes with
  | keeps registries objects =>
      constructor
      · rw [registries]
        exact kept.registries
      · rw [registries]
        exact kept.unmade
  | makes walker registries objects =>
      constructor
      · intro number registry there
        rw [registries, Array.getElem?_push] at there
        split at there
        · rename_i last
          have made := Option.some.inj there
          rw [← made, kept.unmade number (Nat.le_of_eq last.symm)]
          exact .empty walker
        · exact kept.registries number registry there
      · intro number unmade
        rw [registries, Array.size_push] at unmade
        exact kept.unmade number (by omega)
  | closes archives keeps => exact absurd rfl other
  | scans path own =>
      have scanned := Scan.keepsHandles_scan session.files path own session.catalog
        wellKept.catalog
      exact kept.setCatalog (scanned.handles _ kept.current)
  | reloads => exact kept.setCatalog (handlesKept_reload session.files kept.current)

theorem step_close (session : Session) :
    session.step .close =
      (.finished (.ok ()) (session.setRegistry session.registry.closed).currentListing,
        session.setRegistry session.registry.closed) := by
  simp only [step, Registry.close_eq]

theorem ClosedUpTo.handlesKept (traced : session.ClosedUpTo floor) : session.HandlesKept floor := by
  induction traced with
  | start files =>
      constructor
      · intro number registry there
        change (#[] : Array Registry)[number]? = some registry at there
        simp at there
      · intro number _
        rfl
  | @step session floor operation other traced ih =>
      exact (session.step_passes operation).handlesKept other traced.reachable.wellKept ih
  | @close session floor traced ih =>
      rw [step_close]
      apply ih.setRegistry ih.current.closed
      intro missing
      rw [registry_eq_empty missing]
      rfl
  | refile files _ ih => exact ⟨ih.registries, ih.unmade⟩

end Kept

/-- What becomes of the current registry when it is closed, and of a session with it. -/
structure Closes (session after : Session) : Prop where
  entries : after.registry.entries = session.registry.entries
  classes : after.registry.classes = session.registry.classes
  members : ∀ (key name : String) (path : Path.Text) (handle index : Nat),
    session.registry.entries[key]? = some (.member path handle index name) →
    after.registry.ReadsAs key (· = .error (.ofCause (.archiveClosed path)))
  files : ∀ key path, session.registry.entries[key]? = some (.file path) → ∀ files,
    after.registry.readResource files key = session.registry.readResource files key ∧
    after.registry.openResource files key = session.registry.openResource files key
  others : ∀ number, number ≠ session.current →
    after.registries[number]? = session.registries[number]?
  rest : after = { session with registries := after.registries }

section Closing

variable (session : Session)

theorem registry_step_close : (session.step .close).2.registry = session.registry.closed := by
  rw [step_close]
  by_cases inside : session.current < session.registries.size
  · exact registry_setRegistry session.registry.closed inside
  · have missing : session.registries.size ≤ session.current := by omega
    have still : (session.setRegistry session.registry.closed).registries.size ≤
        (session.setRegistry session.registry.closed).current := by
      change (session.registries.setIfInBounds _ _).size ≤ session.current
      rw [Array.size_setIfInBounds]
      exact missing
    rw [registry_eq_empty still, registry_eq_empty missing, Registry.closed_empty]

theorem setRegistry_self : session.setRegistry session.registry = session := by
  have same : session.registries.setIfInBounds session.current session.registry =
      session.registries := by
    by_cases inside : session.current < session.registries.size
    · exact setIfInBounds_self (getElem?_current inside)
    · exact Array.setIfInBounds_eq_of_size_le (by omega)
  rw [setRegistry, same]

/-- A registry that has been closed is not changed by closing it again. -/
theorem step_close_twice :
    (session.step .close).2.step .close =
      (.finished (.ok ()) (session.step .close).2.currentListing, (session.step .close).2) := by
  have again : (session.step .close).2.setRegistry (session.step .close).2.registry.closed =
      (session.step .close).2 := by
    have closed : (session.step .close).2.registry.closed = (session.step .close).2.registry := by
      rw [registry_step_close, Registry.closed_closed]
    rw [closed, setRegistry_self]
  rw [step_close (session.step .close).2, again]

theorem closes_step_close {session : Session} {floor : Nat → Nat} (wellKept : session.WellKept)
    (kept : session.HandlesKept floor) : session.Closes (session.step .close).2 := by
  have placed := session.registry_step_close
  constructor
  · rw [placed, Registry.entries_closed]
  · rw [placed, Registry.classes_closed]
  · intro key path name handle index entered
    have closedKept := kept.current.closed
    have closedWellKept := ((session.step_passes .close).wellKept wellKept).catalog
    change (session.step .close).2.registry.WellKept _ at closedWellKept
    rw [placed] at closedWellKept ⊢
    obtain ⟨archive, there, _⟩ := kept.current.member wellKept.catalog entered
    exact closedKept.readsAs_closed closedWellKept entered (Array.getElem?_eq_some_iff.mp there).1
  · intro key path entered files
    rw [placed]
    exact ⟨Registry.readResource_closed_of_file entered files,
      Registry.openResource_closed_of_file entered files⟩
  · intro number other
    rw [step_close]
    exact Array.getElem?_setIfInBounds_ne (Ne.symm other)
  · rw [step_close]
    rfl

end Closing

theorem current_scan (session : Session) (path : Path.Text) (own : Bool) :
    (session.step (.scan path own)).2.current = session.current := by
  change (session.runScan (Scan.scan session.files path own)).2.current = session.current
  rw [runScan_eq]
  rfl

/-- A member that a scan has registered is in an archive that was opened by that scan. -/
theorem handle_of_scanned {session : Session} {floor : Nat → Nat} (wellKept : session.WellKept)
    (kept : session.HandlesKept floor) (path : Path.Text) (own : Bool)
    {key name : String} {archivePath : Path.Text} {handle index : Nat}
    (free : session.registry.entries[key]? = none)
    (entered : (session.step (.scan path own)).2.registry.entries[key]? =
      some (.member archivePath handle index name)) : floor session.current ≤ handle := by
  change (session.runScan (Scan.scan session.files path own)).2.registry.entries[key]? = _
    at entered
  rw [runScan_eq] at entered
  by_cases inside : session.current < session.registries.size
  · rw [registry_setCatalog _ inside] at entered
    have scanned := Scan.keepsHandles_scan session.files path own session.catalog
      wellKept.catalog
    rcases scanned.new key _ entered with old | late
    · exact nomatch free.symm.trans old
    · exact Nat.le_trans kept.current.floor_le (late handle rfl)
  · rw [kept.unmade session.current (by omega)]
    exact Nat.zero_le handle

/-- In any session that can come to be: members of archives can be read if their archives were
opened since their registry was closed, which those are that a scan registers next, and are cut off
if not; files are never cut off; an archive that nothing is registered from is closed. Closing
succeeds, keeps what is registered, and cuts off just the members; closing again changes nothing. -/
theorem archives_open_exactly {session : Session} (reachable : session.Reachable) :
    (∃ floor, session.ClosedUpTo floor) ∧
    (∀ floor, session.ClosedUpTo floor →
      (∀ (number : Nat) (registry : Registry), session.registries[number]? = some registry →
        registry.HandlesExact (floor number)) ∧
      ∀ (path archivePath : Path.Text) (own : Bool) (key name : String) (handle index : Nat),
        session.registry.entries[key]? = none →
        (session.step (.scan path own)).2.registry.entries[key]? =
          some (.member archivePath handle index name) →
        floor session.current ≤ handle ∧
          (session.step (.scan path own)).2.registry.ReadsAs key NotCutOff) ∧
    (session.step .close).1 = .finished (.ok ()) session.currentListing ∧
    session.Closes (session.step .close).2 ∧
    (session.step .close).2.step .close =
      (.finished (.ok ()) (session.step .close).2.currentListing, (session.step .close).2) := by
  have wellKept := reachable.wellKept
  obtain ⟨limits, limited⟩ := reachable.exists_closedUpTo
  have closes := closes_step_close wellKept limited.handlesKept
  refine ⟨⟨limits, limited⟩, ?_, ?_, closes, session.step_close_twice⟩
  · intro floor traced
    have kept := traced.handlesKept
    constructor
    · intro number registry there
      exact (kept.registries number registry there).handlesExact (wellKept number registry there)
    · intro path archivePath own key name handle index free entered
      have late := handle_of_scanned wellKept kept path own free entered
      have scanned : (session.step (.scan path own)).2.ClosedUpTo floor :=
        traced.step _ (by simp)
      have known := scanned.handlesKept.current.handlesExact scanned.reachable.wellKept.catalog
      have same := session.current_scan path own
      rw [same] at known
      exact ⟨late, (known.members key name archivePath handle index entered).2.1 late⟩
  · have entries : (session.step .close).2.currentListing = session.currentListing := by
      simp only [currentListing, Registry.resourceKeys, Registry.classNames, closes.entries,
        closes.classes]
    rw [← entries, step_close]

/-- An archive of one member without contents. -/
def archiveSpecimen : Bytes :=
  Zip.localSignature ++ List.replicate 22 0 ++ [1, 0, 0, 0, 0x6E] ++
    (Zip.memberSignature ++ List.replicate 24 0 ++ [1, 0] ++ List.replicate 16 0 ++ [0x6E]) ++
      (Zip.endSignature ++ List.replicate 4 0 ++ [1, 0, 1, 0, 47, 0, 0, 0, 31, 0, 0, 0, 0, 0])

def archiveFiles : FileTree := ⟨.directory [("a.jar", .file archiveSpecimen)], []⟩

/-- A session that has scanned the archive. -/
def archived : Session :=
  (((start archiveFiles).step (.newRegistry false)).2.step (.scan "a.jar" true)).2

theorem archived_closedUpTo : archived.ClosedUpTo fun _ => 0 :=
  .step _ (by simp) (.step _ (by simp [Operation.newRegistry]) (.start _))

theorem exists_openAt_specimen : ∃ archive, Archive.openAt archiveFiles "a.jar" = .ok archive ∧
    archive.path = "a.jar" ∧ archive.members = .ok [⟨0, "n", false⟩] := by
  have evaluated : (Archive.openAt archiveFiles "a.jar").toOption.map
      (fun archive => (archive.path, archive.members.toOption)) =
        some (("a.jar" : Path.Text), some [⟨0, "n", false⟩]) := by
    decide
  cases opened : Archive.openAt archiveFiles "a.jar" with
  | error error =>
      rw [opened] at evaluated
      cases evaluated
  | ok archive =>
      rw [opened] at evaluated
      obtain ⟨path, members⟩ := Prod.mk.inj (Option.some.inj evaluated)
      cases listed : archive.members with
      | error error =>
          rw [listed] at members
          cases members
      | ok found =>
          rw [listed] at members
          exact ⟨archive, rfl, path, listed.trans (congrArg Except.ok (Option.some.inj members))⟩

/-- What a scan of the archive leaves of a fresh registry. -/
def archivedCatalog (archive : Archive) : Catalog :=
  ((⟨Registry.empty none, #[]⟩ : Catalog).withArchives #[archive]).enter "n"
    (.member "a.jar" 0 0 "n")

theorem left_addArchive_specimen {archive : Archive} (path : archive.path = "a.jar")
    (members : archive.members = .ok [⟨0, "n", false⟩]) :
    Scan.left (Scan.addArchive archiveFiles archive true ⟨Registry.empty none, #[]⟩) =
      archivedCatalog archive := by
  have plain : Scan.isClassName "n" = false := by decide
  have ran := Scan.addResource_eq "n" (.member "a.jar" 0 0 "n")
    ((⟨Registry.empty none, #[]⟩ : Catalog).withArchives #[archive])
  have free : ((⟨Registry.empty none, #[]⟩ : Catalog).withArchives
      #[archive]).registry.entries["n"]? = none := Std.ExtTreeMap.getElem?_empty
  rw [free] at ran
  change Scan.left ((ofExcept archive.members >>= fun listed =>
    Scan.addMembers archiveFiles 0 archive.path true listed : Scan Unit)
      ((⟨Registry.empty none, #[]⟩ : Catalog).withArchives #[archive])) = _
  rw [members, path]
  change Scan.left (Scan.addMembers archiveFiles 0 "a.jar" true [⟨0, "n", false⟩]
    ((⟨Registry.empty none, #[]⟩ : Catalog).withArchives #[archive])) = _
  have one : Scan.addMembers archiveFiles 0 "a.jar" true [⟨0, "n", false⟩] =
      (do
        Scan.addResource "n" (.member "a.jar" 0 0 "n")
        return ()) := by
    simp [Scan.addMembers, plain]
  rw [one]
  change Scan.left (EStateM.bind _ _ _) = _
  rw [EStateM.bind, ran]
  rfl

theorem archived_entries :
    archived.registry.entries["n"]? = some (.member "a.jar" 0 0 "n") := by
  obtain ⟨archive, opened, path, members⟩ := exists_openAt_specimen
  have added := left_addArchive_specimen path members
  have larger : ¬ (archivedCatalog archive).registry.entries.size =
      (Registry.empty none).entries.size := by
    have sized : (archivedCatalog archive).registry.entries.size =
        (Registry.empty none).entries.size + 1 := size_insert_free Std.ExtTreeMap.getElem?_empty
    omega
  have plain : archiveFiles.isDirectory "a.jar" = false := by decide
  have fileName : Path.fileName? "a.jar" = some "a.jar" := by decide
  have extension : Path.extension? "a.jar" = some "jar" :=
    (Path.extension?_eq_some_iff _ _).mpr (by decide)
  have scanned : Scan.left (Scan.scan archiveFiles "a.jar" true ⟨Registry.empty none, #[]⟩) =
      archivedCatalog archive := by
    have chosen : Scan.scan archiveFiles "a.jar" true =
        Scan.scanArchive archiveFiles "a.jar" true := by
      simp [Scan.scan, Scan.scanFile, plain, fileName, extension]
    rw [chosen, Scan.left_scanArchive opened]
    dsimp only
    rw [added, if_neg larger]
  change (Session.runScan _ _).2.registry.entries["n"]? = _
  rw [runScan_eq]
  change (Session.setCatalog _ (Scan.left (Scan.scan archiveFiles "a.jar" true
    ⟨Registry.empty none, #[]⟩))).registry.entries["n"]? = _
  rw [scanned]
  exact Std.ExtTreeMap.getElem?_insert_self

/-- The member of the archive can be read until its registry is closed, and is cut off then. -/
theorem archives_open_exactly_specimen : archived.Reachable ∧ archived.ClosedUpTo (fun _ => 0) ∧
    archived.registry.entries["n"]? = some (.member "a.jar" 0 0 "n") ∧
    archived.registry.ReadsAs "n" NotCutOff ∧
    (archived.step .close).1 = .finished (.ok ()) archived.currentListing ∧
    (archived.step .close).2.registry.ReadsAs "n"
      (· = .error (.ofCause (.archiveClosed "a.jar"))) := by
  obtain ⟨_, exactly, closed, closes, _⟩ := archives_open_exactly archived_closedUpTo.reachable
  have inside : archived.current < archived.registries.size := by
    change (Session.runScan _ _).2.current < (Session.runScan _ _).2.registries.size
    rw [runScan_eq]
    exact Nat.zero_lt_one
  have handles := (exactly _ archived_closedUpTo).1 archived.current archived.registry
    (getElem?_current inside)
  have cutOff := closes.members _ _ _ _ _ archived_entries
  rw [Path.Text.shown_ofString] at cutOff
  exact ⟨archived_closedUpTo.reachable, archived_closedUpTo, archived_entries,
    handles.never rfl "n", closed, cutOff⟩

end Session

end Classpath
