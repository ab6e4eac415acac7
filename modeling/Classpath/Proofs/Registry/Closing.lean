import Classpath.Proofs.Registry.Handles

/-!
Reading from archives that are open or closed, and closing them. Main statement: of what a registry
reads, that is cut off which is in an archive from before it was closed, and nothing else.
-/

set_option autoImplicit false

namespace Classpath

/-- The outcome is not that of a closed archive. -/
def NotCutOff {α : Type} (outcome : Except Error α) : Prop :=
  ∀ (error : Error) (path : String), outcome = .error error → error.cause ≠ .archiveClosed path

theorem NotCutOff.map {α β : Type} {outcome : Except Error α} (reads : NotCutOff outcome)
    (change : α → β) : NotCutOff (change <$> outcome) := by
  intro error path failed
  cases outcome with
  | ok value => cases failed
  | error found =>
      cases failed
      exact reads error path rfl

/-! Looking for a file never comes to a closed archive. -/

theorem Node.follow_ne_closed (ancestors : List Node) (node : Node) (pieces : List Path.Text)
    (path : String) : follow ancestors node pieces ≠ .error (.archiveClosed path) := by
  fun_induction follow ancestors node pieces with
  | case1 | case2 | case6 | case8 => simp
  | case3 ancestors children piece pieces stays ih => exact ih
  | case4 children piece pieces goes up ih => exact ih
  | case5 children piece pieces goes up above ancestors ih => exact ih
  | case7 ancestors children piece pieces goes down short child found ih => exact ih

theorem FileTree.find_ne_closed (files : FileTree) (path : Path.Text) (closed : String) :
    files.find path ≠ .error (.archiveClosed closed) := by
  unfold find
  split
  · simp
  · split
    · simp
    · split
      · simp
      · split
        · exact Node.follow_ne_closed _ _ _ closed
        · split
          · exact Node.follow_ne_closed _ _ _ closed
          · simp

theorem FileTree.read_ne_closed (files : FileTree) (path : Path.Text) (closed : String) :
    files.read path ≠ .error (.archiveClosed closed) := by
  unfold read
  split
  · simp
  · simp
  · rename_i cause missing
    intro same
    exact files.find_ne_closed path closed
      (missing.trans (congrArg Except.error (Except.error.inj same)))

namespace Archive

theorem readMember_of_open {archive : Archive} (opened : archive.isOpen = true) (index : Nat) :
    NotCutOff (archive.readMember index) := by
  intro error path failed
  rw [readMember, if_pos opened] at failed
  split at failed
  · cases failed
    simp [Error.within, Error.ofCause]
  · split at failed
    · cases failed
    · cases failed
      simp [Error.within, Error.ofCause]

theorem readMember_of_closed {archive : Archive} (closed : archive.isOpen = false) (index : Nat) :
    archive.readMember index = .error (.ofCause (.archiveClosed archive.path)) := by
  simp [readMember, closed]

end Archive

namespace Entry

variable {files : FileTree} {archives : Array Archive} {entry : Entry}

/-- The archive that an entry is in, if it is in one, is open. -/
def IsOpen (archives : Array Archive) (entry : Entry) : Prop :=
  ∀ handle, entry.archive? = some handle →
    ∃ archive, archives[handle]? = some archive ∧ archive.isOpen = true

theorem IsOpen.read (opened : entry.IsOpen archives) : NotCutOff (entry.read files archives) := by
  cases entry with
  | file path =>
      intro error closed failed same
      change (files.read path).mapError _ = _ at failed
      cases found : files.read path with
      | ok content =>
          rw [found] at failed
          cases failed
      | error cause =>
          rw [found] at failed
          cases failed
          exact files.read_ne_closed path closed (found.trans (congrArg Except.error same))
  | member path handle index name =>
      obtain ⟨archive, there, isOpen⟩ := opened handle rfl
      have reads := Archive.readMember_of_open isOpen index
      simpa only [Entry.read, readMember, there] using reads

theorem IsOpen.drain (opened : entry.IsOpen archives) : NotCutOff (entry.drain files archives) := by
  cases entry with
  | file path =>
      intro error closed failed same
      unfold Entry.drain at failed
      dsimp only at failed
      split at failed
      · rename_i cause missing
        cases failed
        exact files.find_ne_closed path closed (missing.trans (congrArg Except.error same))
      · cases failed
        cases same
      · cases failed
  | member path handle index name =>
      have reads : NotCutOff ((member path handle index name).read files archives) := opened.read
      exact reads

end Entry

namespace Registry

/-- Whatever is read behind a key, of the resource or of a class from there, comes to an outcome of
the kind. -/
structure ReadsAs (registry : Registry) (key : String)
    (kind : Except Error (Option Bytes) → Prop) : Prop where
  resource : ∀ files, kind (registry.readResource files key)
  stream : ∀ files, kind (registry.openResource files key)
  ofClass : ∀ files (cls : ClassFile), cls.source = key → kind (registry.readClassOf files cls)
  byName : ∀ files objects name (object : ClassObject), registry.class? objects name = some object →
    object.file.source = key → kind (registry.readClass files objects name)

theorem readsAs_of_resource {registry : Registry} {key : String}
    {kind : Except Error (Option Bytes) → Prop}
    (resource : ∀ files, kind (registry.readResource files key))
    (stream : ∀ files, kind (registry.openResource files key)) : registry.ReadsAs key kind where
  resource := resource
  stream := stream
  ofClass files cls sourced := by
    rw [readClassOf, sourced]
    exact resource files
  byName files objects name object found sourced := by
    rw [readClass, found]
    dsimp only
    rw [readClassOf, sourced]
    exact resource files

section Reads

variable {registry : Registry} {objects : Array ClassObject} {floor : Nat}
  (wellKept : registry.WellKept objects) (kept : registry.HandlesKept floor)

include wellKept kept

/-- The archive of a member is open if it was opened since the registry was closed. -/
theorem HandlesKept.member {key name : String} {path : Path.Text} {handle index : Nat}
    (entered : registry.entries[key]? = some (.member path handle index name)) :
    ∃ archive, registry.archives[handle]? = some archive ∧ archive.path = path ∧
      (archive.isOpen = true ↔ floor ≤ handle) := by
  obtain ⟨_, archive, _, there, samePath, _⟩ := wellKept.stands key _ entered
  have used : registry.Uses handle := ⟨key, _, entered, rfl⟩
  refine ⟨archive, there, samePath, ?_⟩
  rw [kept.isOpen_iff handle archive there]
  exact and_iff_left used

theorem HandlesKept.readsAs_open {key : String}
    (late : ∀ entry handle, registry.entries[key]? = some entry → entry.archive? = some handle →
      floor ≤ handle) : registry.ReadsAs key NotCutOff := by
  cases entered : registry.entries[key]? with
  | none =>
      apply readsAs_of_resource
      · intro files error path failed
        rw [readResource, entered] at failed
        cases failed
      · intro files error path failed
        rw [openResource, entered] at failed
        cases failed
  | some entry =>
      have isOpen : entry.IsOpen registry.archives := by
        intro handle placed
        have lower := late entry handle entered placed
        cases entry with
        | file path => cases placed
        | member path archive index name =>
            cases placed
            obtain ⟨opened, there, _, known⟩ := kept.member wellKept entered
            exact ⟨opened, there, known.mpr lower⟩
      apply readsAs_of_resource
      · intro files
        rw [readResource, entered]
        exact isOpen.read.map some
      · intro files
        rw [openResource, entered]
        exact isOpen.drain.map some

theorem HandlesKept.readsAs_closed {key name : String} {path : Path.Text} {handle index : Nat}
    (entered : registry.entries[key]? = some (.member path handle index name))
    (early : handle < floor) :
    registry.ReadsAs key (· = .error (.ofCause (.archiveClosed path))) := by
  obtain ⟨archive, there, samePath, known⟩ := kept.member wellKept entered
  have closed : archive.isOpen = false := by
    rw [Bool.eq_false_iff]
    intro isOpen
    have lower := known.mp isOpen
    omega
  have reads := Archive.readMember_of_closed closed index
  rw [samePath] at reads
  have cut : Entry.readMember registry.archives path handle index =
      .error (.ofCause (.archiveClosed path)) := by
    rw [Entry.readMember, there]
    exact reads
  apply readsAs_of_resource
  · intro files
    rw [readResource, entered]
    change some <$> Entry.readMember _ _ _ _ = _
    rw [cut]
    rfl
  · intro files
    rw [openResource, entered]
    change some <$> Entry.readMember _ _ _ _ = _
    rw [cut]
    rfl

end Reads

/-! Closing. -/

theorem closeEach_failures (entries : List (String × Entry)) (archives : Array Archive)
    (failures : List Error) : (closeEach entries archives failures).2 = failures := by
  induction entries generalizing archives with
  | nil => rfl
  | cons first rest ih =>
      obtain ⟨key, entry⟩ := first
      cases entry with
      | file path => exact ih archives
      | member path archive index name => exact ih (archives.modify archive Archive.close)

theorem size_closeEach (entries : List (String × Entry)) (archives : Array Archive)
    (failures : List Error) : (closeEach entries archives failures).1.size = archives.size := by
  induction entries generalizing archives with
  | nil => rfl
  | cons first rest ih =>
      obtain ⟨key, entry⟩ := first
      cases entry with
      | file path => exact ih archives
      | member path archive index name =>
          have rested := ih (archives.modify archive Archive.close)
          rw [Array.size_modify] at rested
          exact rested

/-- Closed are the archives that one of the entries is in. -/
theorem getElem?_closeEach (entries : List (String × Entry)) (archives : Array Archive)
    (failures : List Error) (handle : Nat) :
    (closeEach entries archives failures).1[handle]? =
      if entries.any (fun each => each.2.archive? = some handle) then
        archives[handle]?.map Archive.close
      else archives[handle]? := by
  induction entries generalizing archives with
  | nil => rfl
  | cons first rest ih =>
      obtain ⟨key, entry⟩ := first
      rw [List.any_cons]
      cases entry with
      | file path =>
          have elsewhere : decide ((Entry.file path).archive? = some handle) = false := rfl
          rw [elsewhere, Bool.false_or]
          exact ih archives
      | member path archive index name =>
          have rested := ih (archives.modify archive Archive.close)
          rw [Array.getElem?_modify] at rested
          refine Eq.trans rested ?_
          by_cases same : archive = handle
          · have here : decide ((Entry.member path archive index name).archive? = some handle) =
                true := decide_eq_true (congrArg some same)
            rw [here, Bool.true_or, if_pos same, if_pos rfl, Option.map_map]
            simp [Function.comp_def]
          · have elsewhere : decide ((Entry.member path archive index name).archive? =
                some handle) = false := decide_eq_false fun found => same (Option.some.inj found)
            rw [elsewhere, Bool.false_or, if_neg same]

/-- The registry once it is closed. -/
def closed (registry : Registry) : Registry := registry.close.2

theorem close_eq (registry : Registry) : registry.close = (.ok (), registry.closed) := by
  have failures := closeEach_failures registry.entries.toList registry.archives []
  have outcome : registry.close.1 = .ok () := by
    change Error.ofCloseFailures (closeEach registry.entries.toList registry.archives []).2 = _
    rw [failures]
    rfl
  exact Prod.ext outcome rfl

section Closed

variable (registry : Registry)

@[simp] theorem entries_closed : registry.closed.entries = registry.entries := rfl

@[simp] theorem classes_closed : registry.closed.classes = registry.classes := rfl

@[simp] theorem size_archives_closed :
    registry.closed.archives.size = registry.archives.size :=
  size_closeEach registry.entries.toList registry.archives []

theorem any_iff_uses (handle : Nat) :
    registry.entries.toList.any (fun each => each.2.archive? = some handle) = true ↔
      registry.Uses handle := by
  simp only [List.any_eq_true, decide_eq_true_eq]
  constructor
  · intro used
    obtain ⟨⟨key, entry⟩, among, placed⟩ := used
    exact ⟨key, entry, Std.ExtTreeMap.mem_toList_iff_getElem?_eq_some.mp among, placed⟩
  · intro used
    obtain ⟨key, entry, there, placed⟩ := used
    exact ⟨(key, entry), Std.ExtTreeMap.mem_toList_iff_getElem?_eq_some.mpr there, placed⟩

theorem getElem?_closed_of_used {handle : Nat} (used : registry.Uses handle) :
    registry.closed.archives[handle]? = registry.archives[handle]?.map Archive.close := by
  have each := getElem?_closeEach registry.entries.toList registry.archives [] handle
  rwa [if_pos ((registry.any_iff_uses handle).mpr used)] at each

theorem getElem?_closed_of_unused {handle : Nat} (unused : ¬ registry.Uses handle) :
    registry.closed.archives[handle]? = registry.archives[handle]? := by
  have each := getElem?_closeEach registry.entries.toList registry.archives [] handle
  rwa [if_neg fun any => unused ((registry.any_iff_uses handle).mp any)] at each

theorem closed_closed : registry.closed.closed = registry.closed := by
  have archives : registry.closed.closed.archives = registry.closed.archives := by
    apply Array.ext_getElem?
    intro handle
    by_cases used : registry.Uses handle
    · rw [registry.closed.getElem?_closed_of_used used, registry.getElem?_closed_of_used used,
        Option.map_map]
      simp [Function.comp_def]
    · rw [registry.closed.getElem?_closed_of_unused used]
  change { registry with archives := registry.closed.closed.archives } =
    { registry with archives := registry.closed.archives }
  rw [archives]

theorem closed_empty (walker : Option Walker) :
    (Registry.empty walker).closed = Registry.empty walker := by
  have none : (Registry.empty walker).closed.archives = #[] := by
    apply Array.eq_empty_of_size_eq_zero
    exact (Registry.empty walker).size_archives_closed
  change { Registry.empty walker with archives := (Registry.empty walker).closed.archives } = _
  rw [none]
  rfl

variable {registry}

/-- After closing, the archives from before it are closed, which are all that there are. -/
theorem HandlesKept.closed {floor : Nat} (kept : registry.HandlesKept floor) :
    registry.closed.HandlesKept registry.archives.size := by
  constructor
  · exact Nat.le_of_eq registry.size_archives_closed.symm
  · intro handle archive there
    have inside := (Array.getElem?_eq_some_iff.mp there).1
    rw [size_archives_closed] at inside
    refine iff_of_false ?_ (by omega)
    by_cases used : registry.Uses handle
    · rw [registry.getElem?_closed_of_used used] at there
      obtain ⟨before, _, rfl⟩ := Option.map_eq_some_iff.mp there
      simp [Archive.close]
    · rw [registry.getElem?_closed_of_unused used] at there
      intro isOpen
      exact used ((kept.isOpen_iff handle archive there).mp isOpen).2

theorem readResource_closed_of_file {key : String} {path : Path.Text}
    (entered : registry.entries[key]? = some (.file path)) (files : FileTree) :
    registry.closed.readResource files key = registry.readResource files key := by
  simp only [readResource, entries_closed, entered, Entry.read]

theorem openResource_closed_of_file {key : String} {path : Path.Text}
    (entered : registry.entries[key]? = some (.file path)) (files : FileTree) :
    registry.closed.openResource files key = registry.openResource files key := by
  simp only [openResource, entries_closed, entered, Entry.drain]

end Closed

end Registry

end Classpath
