import Classpath.Proofs.Registry.Growth

/-!
Counting what a scan registers of an archive. However the scan ends, early exits included, the
count is the number of keys that the registry has gained. So nothing has been counted exactly if
nothing has been registered, and a scan can be told without the count.

Main statement: `scanArchive_eq`.
-/

set_option autoImplicit false

namespace Classpath

namespace Scan

/-- The catalog that a step leaves, however it ends. -/
def left {α : Type} : EStateM.Result Error Catalog α → Catalog
  | .ok _ catalog => catalog
  | .error _ catalog => catalog

theorem left_during {α : Type} (context : Context) (step : Scan α) (catalog : Catalog) :
    left (during context step catalog) = left (step catalog) := by
  unfold during
  cases step catalog with
  | ok value after => rfl
  | error error after => rfl

theorem get_bind {α : Type} (next : Catalog → Scan α) (catalog : Catalog) :
    (get >>= next) catalog = next catalog catalog := rfl

theorem bind_of_ok {α β : Type} {first : Scan α} {next : α → Scan β} {catalog between : Catalog}
    {value : α} (ran : first catalog = .ok value between) :
    (first >>= next) catalog = next value between := by
  change EStateM.bind first next catalog = _
  unfold EStateM.bind
  rw [ran]

theorem bind_of_error {α β : Type} {first : Scan α} {next : α → Scan β}
    {catalog between : Catalog} {error : Error} (ran : first catalog = .error error between) :
    (first >>= next) catalog = .error error between := by
  change EStateM.bind first next catalog = _
  unfold EStateM.bind
  rw [ran]

theorem addResource_eq (key : String) (entry : Entry) (catalog : Catalog) :
    addResource key entry catalog =
      match catalog.registry.entries[key]? with
      | some current =>
          .error (.ofCause (.duplicateResource key entry.text current.text)) catalog
      | none => .ok () (catalog.enter key entry) := by
  rw [addResource, get_bind]
  cases catalog.registry.entries[key]? with
  | some current => rfl
  | none => rfl

theorem addClass_eq (files : FileTree) (key : String) (own : Bool) (catalog : Catalog)
    (entry : Entry) (entered : catalog.registry.entries[key]? = some entry) :
    addClass files key own catalog =
      match entry.read files catalog.registry.archives with
      | .error error => .error error catalog
      | .ok bytes =>
          match ClassFile.parse bytes own key with
          | .error error => .error error catalog
          | .ok (file, pool) =>
              if catalog.registry.classes.contains file.name then
                .error (.ofCause (.duplicateClass file.name)) catalog
              else .ok () (catalog.add ⟨file, some pool⟩) := by
  rw [addClass, get_bind, entered]
  dsimp only
  cases entry.read files catalog.registry.archives with
  | error error => rfl
  | ok bytes =>
      change ((ofExcept (ClassFile.parse bytes own key) >>= _ : Scan Unit) catalog) = _
      dsimp only
      cases ClassFile.parse bytes own key with
      | error error => rfl
      | ok found =>
          obtain ⟨file, pool⟩ := found
          dsimp only
          change ((if catalog.registry.classes.contains file.name = true then _ else _ :
            Scan Unit) catalog) = _
          by_cases taken : catalog.registry.classes.contains file.name = true
          · rw [if_pos taken, if_pos taken]
            rfl
          · rw [if_neg taken, if_neg taken]
            rfl

/-! Scans that do not count. -/

/-- Adds the members that are registered, without a count. -/
def addMembers (files : FileTree) (archive : Nat) (path : Path.Text) (own : Bool) :
    List Archive.Listed → Scan Unit
  | [] => return ()
  | member :: rest => do
      if ¬ member.isDirectory ∧ (isClassName member.name ∨ own) then
        addResource member.name (.member path archive member.index member.name)
        if isClassName member.name then
          addClass files member.name own
      addMembers files archive path own rest

/-- Adds the members of an archive that has just been opened, without a count. -/
def addArchive (files : FileTree) (archive : Archive) (own : Bool) : Scan Unit := do
  let catalog ← get
  let number := catalog.registry.archives.size
  let archives := catalog.registry.archives.push archive
  set { catalog with registry := { catalog.registry with archives } }
  addMembers files number archive.path own (← ofExcept archive.members)

section Counts

variable {α β : Type}

/-- The end of a step, with a count beside the catalog that it leaves. -/
def withCount (registered : Nat) :
    EStateM.Result Error Catalog α → EStateM.Result Error Counted α
  | .ok value catalog => .ok value ⟨catalog, registered⟩
  | .error error catalog => .error error ⟨catalog, registered⟩

/-- A counting step ends as another does that does not count, and however that is, it has counted
the keys that are new. -/
def Counts (counting : Counting α) (step : Scan α) : Prop :=
  ∀ catalog registered, ∃ added,
    counting ⟨catalog, registered⟩ = withCount (registered + added) (step catalog) ∧
      (left (step catalog)).registry.entries.size = catalog.registry.entries.size + added

namespace Counts

variable {counting : Counting α} {step : Scan α}

theorem pure (value : α) : Counts (Pure.pure value) (Pure.pure value) :=
  fun _ _ => ⟨0, rfl, rfl⟩

theorem ofExcept (outcome : Except Error α) :
    Counts (MonadExcept.ofExcept outcome) (MonadExcept.ofExcept outcome) := by
  intro catalog registered
  cases outcome with
  | error error => exact ⟨0, rfl, rfl⟩
  | ok value => exact ⟨0, rfl, rfl⟩

/-- What the first part has counted is there when it fails, and otherwise the rest adds to it. -/
theorem bind {next : α → Counting β} {rest : α → Scan β} (first : Counts counting step)
    (others : ∀ value, Counts (next value) (rest value)) :
    Counts (counting >>= next) (step >>= rest) := by
  intro catalog registered
  obtain ⟨added, ran, grown⟩ := first catalog registered
  change ∃ more, EStateM.bind counting next _ = withCount _ (EStateM.bind step rest catalog) ∧
    (left (EStateM.bind step rest catalog)).registry.entries.size = _
  unfold EStateM.bind
  rw [ran]
  cases ended : step catalog with
  | error error after =>
      rw [ended] at grown
      exact ⟨added, rfl, grown⟩
  | ok value after =>
      rw [ended] at grown
      obtain ⟨more, ranOn, grownOn⟩ := others value after (registered + added)
      refine ⟨added + more, ?_, ?_⟩
      · rw [← Nat.add_assoc]
        exact ranOn
      · rw [← Nat.add_assoc, ← grown]
        exact grownOn

theorem during (context : Context) (counts : Counts counting step) :
    Counts (Classpath.during context counting) (Classpath.during context step) := by
  intro catalog registered
  obtain ⟨added, ran, grown⟩ := counts catalog registered
  refine ⟨added, ?_, left_during context step catalog ▸ grown⟩
  unfold Classpath.during
  rw [ran]
  cases step catalog with
  | ok value after => rfl
  | error error after => rfl

/-- A step that registers no key is not to be counted. -/
theorem uncounted (keeps : ∀ catalog,
    (left (step catalog)).registry.entries.size = catalog.registry.entries.size) :
    Counts (Scan.uncounted step) step := by
  intro catalog registered
  refine ⟨0, ?_, keeps catalog⟩
  unfold Scan.uncounted
  cases step catalog with
  | ok value after => rfl
  | error error after => rfl

/-- A resource counts as soon as it is registered, and not if its key is taken. -/
theorem resource (key : String) (entry : Entry) :
    Counts (do
      Scan.uncounted (addResource key entry)
      countOne) (addResource key entry) := by
  intro catalog registered
  change ∃ added, EStateM.bind (Scan.uncounted (addResource key entry)) _ _ = _ ∧ _
  unfold EStateM.bind Scan.uncounted
  rw [addResource_eq]
  cases free : catalog.registry.entries[key]? with
  | some current => exact ⟨0, rfl, rfl⟩
  | none => exact ⟨1, rfl, size_insert_free free⟩

/-- The class behind a key adds no key. -/
theorem addClass (files : FileTree) (key : String) (own : Bool) :
    Counts (Scan.uncounted (Scan.addClass files key own)) (Scan.addClass files key own) := by
  apply uncounted
  intro catalog
  cases entered : catalog.registry.entries[key]? with
  | none =>
      rw [Scan.addClass, get_bind, entered]
      rfl
  | some entry =>
      rw [addClass_eq files key own catalog entry entered]
      split
      · rfl
      split
      · rfl
      split
      · rfl
      · rfl

theorem members (files : FileTree) (archive : Nat) (path : Path.Text) (own : Bool)
    (listed : List Archive.Listed) :
    Counts (registerMembers files archive path own listed)
      (addMembers files archive path own listed) := by
  induction listed with
  | nil => exact pure ()
  | cons member rest ih =>
      have entered := resource member.name (.member path archive member.index member.name)
      rw [registerMembers, addMembers]
      dsimp only
      split
      · by_cases isClass : isClassName member.name = true
        · simp only [if_pos isClass]
          rw [← bind_assoc]
          exact entered.bind fun _ => (addClass files member.name own).bind fun _ => ih
        · simp only [if_neg isClass]
          rw [← bind_assoc]
          exact entered.bind fun _ => ih
      · exact ih

theorem archive (files : FileTree) (archive : Archive) (own : Bool) :
    Counts (registerArchive files archive own) (addArchive files archive own) := by
  intro catalog registered
  have listed := (ofExcept archive.members).bind
    (members files catalog.registry.archives.size archive.path own)
  exact listed (catalog.withArchives (catalog.registry.archives.push archive)) registered

end Counts

end Counts

/-- An archive is closed again if the registry has not gained a key, however its scan ended. -/
theorem scanArchive_eq (files : FileTree) (path : Path.Text) (own : Bool) (catalog : Catalog) :
    scanArchive files path own catalog =
      match Archive.openAt files path with
      | .error error => .error error catalog
      | .ok archive =>
          let closeUnused (after : Catalog) : Catalog :=
            if after.registry.entries.size = catalog.registry.entries.size then
              after.withArchives
                (after.registry.archives.modify catalog.registry.archives.size Archive.close)
            else after
          match during (.scanningArchive path) (addArchive files archive own) catalog with
          | .ok () after => .ok () (closeUnused after)
          | .error error after => .error error (closeUnused after) := by
  unfold scanArchive
  cases Archive.openAt files path with
  | error error => rfl
  | ok archive =>
      obtain ⟨added, ran, grown⟩ :=
        (Counts.archive files archive own).during (.scanningArchive path) catalog 0
      dsimp only
      rw [ran]
      have none_iff : 0 + added = 0 ↔
          (left (during (.scanningArchive path) (addArchive files archive own)
            catalog)).registry.entries.size = catalog.registry.entries.size := by
        omega
      cases ended : during (.scanningArchive path) (addArchive files archive own) catalog with
      | ok value after =>
          rw [ended] at none_iff
          simp only [withCount, none_iff]
          rfl
      | error error after =>
          rw [ended] at none_iff
          simp only [withCount, none_iff]
          rfl

end Scan

end Classpath
