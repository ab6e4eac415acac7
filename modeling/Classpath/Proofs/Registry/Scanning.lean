import Classpath.Proofs.Files.Paths
import Classpath.Proofs.Registry.Counting

/-!
Scans as growth: however a scan ends, the catalog it leaves has grown out of the one it was given.
What holds across the registering of a file and across the scan of an archive holds across a scan.
-/

set_option autoImplicit false

namespace Classpath

namespace Scan

open Catalog (Grows)

section Steps

variable {α β : Type} {files : FileTree} {own : Bool}

/-- What the first part leaves is where the second begins, whatever relation is passed on. -/
theorem related_bind (related : Catalog → Catalog → Prop)
    (trans : ∀ {before between after : Catalog}, related before between → related between after →
      related before after)
    {first : Scan α} {next : α → Scan β} {catalog : Catalog}
    (start : related catalog (left (first catalog)))
    (rest : ∀ value after, related catalog after → related after (left (next value after))) :
    related catalog (left ((first >>= next) catalog)) := by
  change related catalog (left (EStateM.bind first next catalog))
  unfold EStateM.bind
  cases ran : first catalog with
  | error error after =>
      rw [ran] at start
      exact start
  | ok value after =>
      rw [ran] at start
      exact trans start (rest value after start)

/-- What grows in its first part and then in its second grows. -/
theorem grows_bind {first : Scan α} {next : α → Scan β} {catalog : Catalog}
    (start : Grows files own catalog (left (first catalog)))
    (rest : ∀ value after, Grows files own catalog after →
      Grows files own after (left (next value after))) :
    Grows files own catalog (left ((first >>= next) catalog)) :=
  related_bind (Grows files own) Relation.ReflTransGen.trans start rest

theorem grows_ofExcept_bind {outcome : Except Error α} {next : α → Scan β} {catalog : Catalog}
    (rest : ∀ value, outcome = .ok value → Grows files own catalog (left (next value catalog))) :
    Grows files own catalog (left (((ofExcept outcome : Scan α) >>= next) catalog)) := by
  cases outcome with
  | error error => exact Relation.ReflTransGen.refl
  | ok value => exact rest value rfl

end Steps

variable {files : FileTree} {own : Bool}

theorem grows_addResource (key : String) (entry : Entry) (catalog : Catalog)
    (stands : entry.StandsFor catalog.registry.archives key) :
    Grows files own catalog (left (addResource key entry catalog)) := by
  rw [addResource_eq]
  cases free : catalog.registry.entries[key]? with
  | some current => exact Relation.ReflTransGen.refl
  | none => exact Relation.ReflTransGen.single (.enters catalog key entry free stands)

/-- A directory is listed before any of its files is added. -/
theorem scanDirectory_eq (files : FileTree) (root : Path.Text) (own : Bool) (catalog : Catalog) :
    scanDirectory files root own catalog =
      match catalog.registry.walker with
      | none => .error (.ofCause (.directoryScanUnsupported root)) catalog
      | some walk =>
          match walk files root with
          | .error error => .error error catalog
          | .ok paths => scanFiles files root own paths catalog := by
  rw [scanDirectory, get_bind]
  cases catalog.registry.walker with
  | none => rfl
  | some walk =>
      dsimp only
      cases walk files root <;> rfl

/-- Each way in which a key with a class behind it is registered or is not. -/
theorem addBoth_eq (files : FileTree) (key : String) (entry : Entry) (own : Bool)
    (catalog : Catalog) :
    (do
      addResource key entry
      addClass files key own : Scan Unit) catalog =
      match catalog.registry.entries[key]? with
      | some current =>
          .error (.ofCause (.duplicateResource key entry.text current.text)) catalog
      | none =>
          match entry.read files catalog.registry.archives with
          | .error error => .error error (catalog.enter key entry)
          | .ok bytes =>
              match ClassFile.parse bytes own key with
              | .error error => .error error (catalog.enter key entry)
              | .ok (file, pool) =>
                  if catalog.registry.classes.contains file.name then
                    .error (.ofCause (.duplicateClass file.name)) (catalog.enter key entry)
                  else .ok () ((catalog.enter key entry).add ⟨file, some pool⟩) := by
  have entered : (catalog.enter key entry).registry.entries[key]? = some entry :=
    Std.ExtTreeMap.getElem?_insert_self
  change EStateM.bind _ _ catalog = _
  rw [EStateM.bind, addResource_eq]
  cases catalog.registry.entries[key]? with
  | some current => rfl
  | none => exact addClass_eq files key own _ entry entered

theorem not_contains_iff {classes : ClassMap} {name : String} :
    ¬ classes.contains name = true ↔ classes[name]? = none := by
  rw [Std.ExtTreeMap.contains_eq_isSome_getElem?]
  exact Option.not_isSome_iff_eq_none

/-- A free key with a class behind it whose name is free is registered with that class. -/
theorem addBoth_of_free (catalog : Catalog) {key : String} {entry : Entry} {bytes : Bytes}
    {file : ClassFile} {pool : Pool} (free : catalog.registry.entries[key]? = none)
    (behind : entry.read files catalog.registry.archives = .ok bytes)
    (parsed : ClassFile.parse bytes own key = .ok (file, pool))
    (unnamed : catalog.registry.classes[file.name]? = none) :
    (do
      addResource key entry
      addClass files key own : Scan Unit) catalog =
        .ok () ((catalog.enter key entry).add ⟨file, some pool⟩) := by
  rw [addBoth_eq, free, behind]
  dsimp only
  rw [parsed]
  exact if_neg (not_contains_iff.mpr unnamed)

/-- A key that is registered with a class behind it, or only registered, or neither. -/
theorem grows_addBoth (key : String) (entry : Entry) (catalog : Catalog)
    (stands : entry.StandsFor catalog.registry.archives key) :
    Grows files own catalog (left ((do
      addResource key entry
      addClass files key own : Scan Unit) catalog)) := by
  rw [addBoth_eq]
  cases free : catalog.registry.entries[key]? with
  | some current => exact Relation.ReflTransGen.refl
  | none =>
      have registered : Grows files own catalog (catalog.enter key entry) :=
        Relation.ReflTransGen.single (.enters catalog key entry free stands)
      cases behind : entry.read files catalog.registry.archives with
      | error error => exact registered
      | ok bytes =>
          dsimp only
          cases parsed : ClassFile.parse bytes own key with
          | error error => exact registered
          | ok found =>
              obtain ⟨file, pool⟩ := found
              dsimp only
              by_cases taken : catalog.registry.classes.contains file.name = true
              · rw [if_pos taken]
                exact registered
              · rw [if_neg taken]
                have unnamed := not_contains_iff.mp taken
                exact Relation.ReflTransGen.single
                  (.adds catalog key entry bytes file pool free stands behind parsed unnamed)

/-- The listed members are those of an archive that the catalog has at `number`. -/
def Lists (catalog : Catalog) (number : Nat) (path : Path.Text)
    (members : List Archive.Listed) : Prop :=
  ∃ archive, catalog.registry.archives[number]? = some archive ∧ archive.path = path ∧
    ∀ listed ∈ members, ∃ member, archive.file.members[listed.index]? = some member ∧
      member.name = listed.name ∧ member.isDirectory = listed.isDirectory

theorem Lists.mono {before after : Catalog} {number : Nat} {path : Path.Text}
    {members rest : List Archive.Listed} (lists : Lists before number path members)
    (keeps : before.Keeps after) (part : ∀ listed ∈ rest, listed ∈ members) :
    Lists after number path rest := by
  obtain ⟨archive, there, samePath, found⟩ := lists
  obtain ⟨later, laterThere, laterPath, laterFile⟩ := keeps.archives number archive there
  refine ⟨later, laterThere, laterPath.trans samePath, ?_⟩
  intro listed member
  rw [laterFile]
  exact found listed (part listed member)

theorem Lists.stands {catalog : Catalog} {number : Nat} {path : Path.Text}
    {members : List Archive.Listed} (lists : Lists catalog number path members)
    {listed : Archive.Listed} (among : listed ∈ members) (plain : ¬ listed.isDirectory = true) :
    (Entry.member path number listed.index listed.name).StandsFor catalog.registry.archives
      listed.name := by
  obtain ⟨archive, there, samePath, found⟩ := lists
  obtain ⟨member, memberThere, named, sameKind⟩ := found listed among
  have notDirectory : member.isDirectory = false := by
    rw [sameKind]
    exact Bool.not_eq_true _ ▸ plain
  exact ⟨rfl, archive, member, there, samePath, memberThere, named, notDirectory⟩

theorem grows_addMembers (number : Nat) (path : Path.Text) (members : List Archive.Listed)
    (catalog : Catalog) (lists : Lists catalog number path members) :
    Grows files own catalog (left (addMembers files number path own members catalog)) := by
  induction members generalizing catalog with
  | nil => exact Relation.ReflTransGen.refl
  | cons listed rest ih =>
      have later (after : Catalog) (grown : Grows files own catalog after) :
          Grows files own after (left (addMembers files number path own rest after)) :=
        ih after (lists.mono (Catalog.Grows.keeps grown)
          fun other among => List.mem_cons_of_mem listed among)
      rw [addMembers]
      dsimp only
      split
      · rename_i usable
        have stands := lists.stands List.mem_cons_self usable.1
        by_cases isClass : isClassName listed.name = true
        · simp only [if_pos isClass]
          rw [← bind_assoc]
          exact grows_bind (grows_addBoth listed.name _ catalog stands)
            fun _ after grown => later after grown
        · simp only [if_neg isClass]
          exact grows_bind (grows_addResource listed.name _ catalog stands)
            fun _ after grown => later after grown
      · exact later catalog Relation.ReflTransGen.refl

/-- What is listed is in the archive, from `index` on. -/
theorem listFrom_found (archive : Archive) (members : List Zip.Member) (index : Nat)
    (listed : List Archive.Listed) (all : archive.listFrom index members = .ok listed)
    (one : Archive.Listed) (among : one ∈ listed) :
    ∃ (offset : Nat) (member : Zip.Member), one.index = index + offset ∧
      members[offset]? = some member ∧ member.name = one.name ∧
        member.isDirectory = one.isDirectory := by
  induction members generalizing index listed with
  | nil =>
      cases all
      cases among
  | cons member rest ih =>
      rw [Archive.listFrom] at all
      cases opened : archive.file.open? index with
      | none =>
          rw [opened] at all
          cases all
      | some found =>
          rw [opened] at all
          dsimp only at all
          cases others : archive.listFrom (index + 1) rest with
          | error error =>
              rw [others] at all
              cases all
          | ok behind =>
              rw [others] at all
              have whole : ⟨index, member.name, member.isDirectory⟩ :: behind = listed :=
                Except.ok.inj all
              subst whole
              rcases List.mem_cons.mp among with first | later
              · subst first
                exact ⟨0, member, rfl, rfl, rfl, rfl⟩
              · obtain ⟨offset, found, placed, there, named, kind⟩ :=
                  ih (index + 1) behind others later
                refine ⟨offset + 1, found, ?_, there, named, kind⟩
                omega

theorem members_found (archive : Archive) (listed : List Archive.Listed)
    (all : archive.members = .ok listed) (one : Archive.Listed) (among : one ∈ listed) :
    ∃ member, archive.file.members[one.index]? = some member ∧ member.name = one.name ∧
      member.isDirectory = one.isDirectory := by
  unfold Archive.members at all
  split at all
  · obtain ⟨offset, member, placed, there, named, kind⟩ :=
      listFrom_found archive archive.file.members 0 listed all one among
    have same : one.index = offset := by omega
    exact ⟨member, same ▸ there, named, kind⟩
  · cases all

theorem grows_addArchive (archive : Archive) (catalog : Catalog) :
    Grows files own catalog (left (addArchive files archive own catalog)) := by
  have opened : Grows files own catalog
      (catalog.withArchives (catalog.registry.archives.push archive)) :=
    Relation.ReflTransGen.single (.opens catalog archive)
  change Grows files own catalog (left (((ofExcept archive.members >>= fun listed =>
    addMembers files catalog.registry.archives.size archive.path own listed) : Scan Unit)
      (catalog.withArchives (catalog.registry.archives.push archive))))
  refine Relation.ReflTransGen.trans opened (grows_ofExcept_bind ?_)
  intro listed all
  apply grows_addMembers
  exact ⟨archive, Array.getElem?_push_size, rfl, members_found archive listed all⟩

/-- A step under which a catalog grows, whether it ends well or not. -/
def Growing (files : FileTree) (own : Bool) (step : Scan Unit) : Prop :=
  ∀ catalog : Catalog, catalog.WellKept → Grows files own catalog (left (step catalog))

/-- No entry is in an archive that was opened since, if no key was registered since. -/
theorem unused_of_grows {before after : Catalog} (kept : before.WellKept)
    (grows : Grows files own before after)
    (none : after.registry.entries.size = before.registry.entries.size) (key : String)
    (entry : Entry) (entered : after.registry.entries[key]? = some entry) :
    entry.archive? ≠ some before.registry.archives.size := by
  intro within
  have same : after.registry.entries = before.registry.entries := by
    rcases Catalog.Grows.entries_eq_or_lt grows with same | larger
    · exact same
    · omega
  rw [same] at entered
  exact Nat.lt_irrefl _ ((kept.stands key entry entered).archive_lt within)

/-- However the members of an archive fare, it is closed if no more keys are registered. -/
theorem left_scanArchive {path : Path.Text} {archive : Archive}
    (opened : Archive.openAt files path = .ok archive) (catalog : Catalog) :
    left (scanArchive files path own catalog) =
      let after := left (addArchive files archive own catalog)
      if after.registry.entries.size = catalog.registry.entries.size then
        after.withArchives
          (after.registry.archives.modify catalog.registry.archives.size Archive.close)
      else after := by
  rw [← left_during (.scanningArchive path) (addArchive files archive own) catalog]
  rw [scanArchive_eq, opened]
  dsimp only
  cases during (.scanningArchive path) (addArchive files archive own) catalog with
  | ok value after => rfl
  | error error after => rfl

/-- An archive that nothing was added from is closed, and no entry is in it. -/
theorem growing_scanArchive (path : Path.Text) :
    Growing files own (scanArchive files path own) := by
  intro catalog kept
  cases opened : Archive.openAt files path with
  | error error =>
      rw [scanArchive_eq, opened]
      exact Relation.ReflTransGen.refl
  | ok archive =>
      have grows : Grows files own catalog (left (addArchive files archive own catalog)) :=
        grows_addArchive archive catalog
      rw [left_scanArchive opened]
      dsimp only
      split
      · rename_i none
        exact Relation.ReflTransGen.tail grows (.closes _ _ (unused_of_grows kept grows none))
      · exact grows

/-- What relates a catalog to the one that a step leaves of it, however the step ends. -/
def Across (related : Catalog → Catalog → Prop) (step : Scan Unit) : Prop :=
  ∀ catalog : Catalog, catalog.WellKept → related catalog (left (step catalog))

/-- A relation that holds across each of the things that scans are made of. -/
structure KeptByScans (files : FileTree) (own : Bool) (related : Catalog → Catalog → Prop) :
    Prop where
  refl : ∀ catalog : Catalog, catalog.WellKept → related catalog catalog
  trans : ∀ {before between after : Catalog}, related before between → related between after →
    related before after
  wellKept : ∀ {before after : Catalog}, related before after → before.WellKept → after.WellKept
  resource : ∀ key path, Across related (addResource key (.file path))
  both : ∀ key path, Across related (do
    addResource key (.file path)
    addClass files key own)
  archive : ∀ path, Across related (scanArchive files path own)

section KeptByScans

variable {related : Catalog → Catalog → Prop} (kept : KeptByScans files own related)

include kept

theorem across_scanFile (key : String) (path : Path.Text) :
    Across related (scanFile files key path own) := by
  unfold scanFile
  split
  · exact kept.both key path
  · exact kept.archive path
  · exact kept.archive path
  · split
    · exact kept.resource key path
    · exact kept.refl

theorem across_scanFiles (root : Path.Text) (paths : List Path.Text) :
    Across related (scanFiles files root own paths) := by
  induction paths with
  | nil => exact kept.refl
  | cons path rest ih =>
      intro catalog wellKept
      have first := across_scanFile kept (Path.relativeKey root path) path catalog wellKept
      apply related_bind related kept.trans first
      intro _ after between
      exact ih after (kept.wellKept between wellKept)

theorem across_scanDirectory (root : Path.Text) :
    Across related (scanDirectory files root own) := by
  intro catalog wellKept
  rw [scanDirectory_eq]
  split
  · exact kept.refl catalog wellKept
  · split
    · exact kept.refl catalog wellKept
    · exact across_scanFiles kept root _ catalog wellKept

theorem across_scan (path : Path.Text) : Across related (scan files path own) := by
  unfold scan
  split
  · exact across_scanDirectory kept path
  · split
    · exact across_scanFile kept _ path
    · exact kept.refl

end KeptByScans

theorem grows_keptByScans (files : FileTree) (own : Bool) :
    KeptByScans files own (Grows files own) where
  refl _ _ := Relation.ReflTransGen.refl
  trans := Relation.ReflTransGen.trans
  wellKept := Catalog.Grows.wellKept
  resource key path catalog _ := grows_addResource key (.file path) catalog trivial
  both key path catalog _ := grows_addBoth key (.file path) catalog trivial
  archive path := growing_scanArchive path

theorem growing_scanFile (key : String) (path : Path.Text) :
    Growing files own (scanFile files key path own) :=
  across_scanFile (grows_keptByScans files own) key path

theorem growing_scan (files : FileTree) (path : Path.Text) (own : Bool) :
    Growing files own (scan files path own) :=
  across_scan (grows_keptByScans files own) path

theorem scanFile_of_class {files : FileTree} {key : String} {path : Path.Text} {own : Bool}
    (extended : Path.extension? path = some "class") :
    scanFile files key path own = (do
      addResource key (.file path)
      addClass files key own) := by
  rw [scanFile, extended]
  rfl

/-- A class file whose key and class are free is registered with its class. -/
theorem scanFile_classFile {files : FileTree} (key : String) {path : Path.Text} {raw : RawClass}
    {className : String} (own : Bool) (catalog : Catalog)
    (read : files.read path = .ok raw.encode) (extended : Path.extension? path = some "class")
    (resolves : raw.Resolvable) (named : raw.pool.className? raw.thisClass = some className)
    (free : catalog.registry.entries[key]? = none)
    (unnamed : catalog.registry.classes[className]? = none) : ∃ cls : ClassFile,
    ClassFile.parse raw.encode own key = .ok (cls, raw.pool.pool) ∧ cls.name = className ∧
      scanFile files key path own catalog = .ok ()
        ((catalog.enter key (.file path)).add ⟨cls, some raw.pool.pool⟩) := by
  obtain ⟨cls, parsed, describes, _⟩ := ClassFile.exists_parse resolves [] own key
  rw [List.append_nil] at parsed
  have goesBy : cls.name = className := Option.some.inj (describes.name.symm.trans named)
  have behind : (Entry.file path).read files catalog.registry.archives = .ok raw.encode := by
    rw [Entry.read, read]
    rfl
  refine ⟨cls, parsed, goesBy, ?_⟩
  rw [scanFile_of_class extended]
  exact addBoth_of_free catalog free behind parsed (goesBy ▸ unnamed)

/-- A class file whose key is free but whose class is not is registered without it. -/
theorem scanFile_classTaken {files : FileTree} {key : String} {path : Path.Text} {raw : RawClass}
    {className : String} {number : ClassNumber} (own : Bool) (catalog : Catalog)
    (read : files.read path = .ok raw.encode) (extended : Path.extension? path = some "class")
    (resolves : raw.Resolvable) (named : raw.pool.className? raw.thisClass = some className)
    (free : catalog.registry.entries[key]? = none)
    (taken : catalog.registry.classes[className]? = some number) :
    scanFile files key path own catalog =
      .error (.ofCause (.duplicateClass className)) (catalog.enter key (.file path)) := by
  obtain ⟨cls, parsed, describes, _⟩ := ClassFile.exists_parse resolves [] own key
  rw [List.append_nil] at parsed
  have goesBy : cls.name = className := Option.some.inj (describes.name.symm.trans named)
  have behind : (Entry.file path).read files catalog.registry.archives = .ok raw.encode := by
    rw [Entry.read, read]
    rfl
  have contained : catalog.registry.classes.contains className = true := by
    rw [Std.ExtTreeMap.contains_eq_isSome_getElem?, taken]
    rfl
  rw [scanFile_of_class extended, addBoth_eq, free, behind]
  dsimp only
  rw [parsed]
  dsimp only
  rw [goesBy, if_pos contained]

/-- A file of no particular kind is registered under its key if it is one's own. -/
theorem scanFile_bare {files : FileTree} {key : String} {path : Path.Text} (own : Bool)
    (catalog : Catalog) (bare : Path.extension? path = none)
    (free : catalog.registry.entries[key]? = none) :
    scanFile files key path own catalog =
      .ok () (if own then catalog.enter key (.file path) else catalog) := by
  rw [scanFile, bare]
  cases own with
  | true => exact (addResource_eq _ _ _).trans (by rw [free]; rfl)
  | false => rfl

/-- A file that is scanned by itself goes under its name. -/
theorem scan_of_file {files : FileTree} {path name : Path.Text} {content : Bytes} (own : Bool)
    (found : files.find path = .ok (.file content)) (called : Path.fileName? path = some name) :
    scan files path own = scanFile files name.shown path own := by
  have plain : files.isDirectory path = false := by
    rw [FileTree.isDirectory, found]
  rw [scan, plain, called]
  rfl

/-- What a scan of one class file leaves of a fresh registry. -/
theorem scan_filesWith {raw : RawClass} (resolves : raw.Resolvable) {name : String}
    (named : raw.pool.className? raw.thisClass = some name) (walker : Option Walker) :
    ∃ cls : ClassFile,
    ClassFile.parse raw.encode true "A.class" = .ok (cls, raw.pool.pool) ∧ cls.name = name ∧
      cls.source = "A.class" ∧
    scan (RawClass.filesWith raw.encode) "A.class" true ⟨Registry.empty walker, #[]⟩ =
      .ok () (((⟨Registry.empty walker, #[]⟩ : Catalog).enter "A.class" (.file "A.class")).add
        ⟨cls, some raw.pool.pool⟩) := by
  have fileName : Path.fileName? "A.class" = some ("A.class" : Path.Text) := by decide
  have extension : Path.extension? "A.class" = some "class" :=
    (Path.extension?_eq_some_iff _ _).mpr (by decide)
  obtain ⟨cls, parsed, goesBy, ran⟩ :=
    scanFile_classFile "A.class" true ⟨Registry.empty walker, #[]⟩
      (RawClass.filesWith_read raw.encode) extension resolves named Std.ExtTreeMap.getElem?_empty
      Std.ExtTreeMap.getElem?_empty
  refine ⟨cls, parsed, goesBy, (ClassFile.parse_origin parsed).2, ?_⟩
  rw [scan_of_file true (RawClass.filesWith_find raw.encode) fileName, Path.Text.shown_ofString]
  exact ran

/-- What a scan of the specimen leaves of a fresh registry. -/
theorem scan_specimen (walker : Option Walker) : ∃ cls : ClassFile,
    ClassFile.parse RawClass.specimen.encode true "A.class" =
      .ok (cls, RawClass.specimen.pool.pool) ∧ cls.name = "A" ∧ cls.source = "A.class" ∧
    scan RawClass.specimenFiles "A.class" true ⟨Registry.empty walker, #[]⟩ =
      .ok () (((⟨Registry.empty walker, #[]⟩ : Catalog).enter "A.class" (.file "A.class")).add
        ⟨cls, some RawClass.specimen.pool.pool⟩) :=
  scan_filesWith RawClass.specimen_resolvable RawClass.specimen_called.1 walker

end Scan

end Classpath
