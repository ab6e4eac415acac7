import Classpath.Proofs.Command.ScanOrder
import Classpath.Proofs.Registry.Packing
import Classpath.Proofs.Session.Independence
import Classpath.Proofs.Session.ReadingBack

/-!
Scanning a directory and scanning an archive of the same files. Main statement: in any session one
succeeds where the other does, and then the registry shows the same after either.
-/

set_option autoImplicit false

namespace Classpath

open Classpath.Path (IsName joinAll)

namespace Catalog

variable {files : FileTree} {before first second : Catalog}

/-- A stream gives the same after two scans, if what these have added can be read. -/
theorem openResource_eq_of_view (firstKeeps : before.Keeps first)
    (secondKeeps : before.Keeps second) (same : first.view files = second.view files)
    (readable : ∀ key, (first.view files).contents key = (before.view files).contents key ∨
      ∃ bytes, (first.view files).contents key = some (.ok bytes)) (key : String) :
    first.registry.openResource files key = second.registry.openResource files key := by
  have reads := readResource_eq_of_view same key
  -- Where reading fails, a stream is not told by what is seen; but such an entry is an old one,
  -- and the same in both.
  cases entered : before.registry.entries[key]? with
  | some entry =>
      have firstEntered := firstKeeps.entries key entry entered
      have secondEntered := secondKeeps.entries key entry entered
      rw [Registry.readResource, firstEntered, Registry.readResource, secondEntered] at reads
      rw [Registry.openResource, firstEntered, Registry.openResource, secondEntered]
      cases entry with
      | file path => rfl
      | member path archive index name => exact reads
  | none =>
      have absent : (before.view files).contents key = none := by simp [view, entered]
      rcases readable key with unchanged | added
      · have firstAbsent : first.registry.entries[key]? = none := by
          simpa [view] using unchanged.trans absent
        have secondAbsent : second.registry.entries[key]? = none := by
          rw [same] at unchanged
          simpa [view] using unchanged.trans absent
        rw [Registry.openResource, firstAbsent, Registry.openResource, secondAbsent]
      · obtain ⟨bytes, contents⟩ := added
        have read : first.registry.readResource files key = .ok (some bytes) := by
          rw [readResource_eq, contents]
          rfl
        rw [Registry.openResource_of_readResource read,
          Registry.openResource_of_readResource (reads ▸ read)]

end Catalog

namespace Session

variable {session : Session} {root jar : Path.Text} {children : List (Path.Text × Node)}
  {archive : Archive}

/-- A registry that is set to walk directories has been made. -/
theorem there_of_walks {walker : Walker} (walks : session.registry.walker = some walker) :
    session.registries[session.current]? = some session.registry := by
  by_cases inside : session.current < session.registries.size
  · exact getElem?_current inside
  · rw [registry_eq_empty (by omega)] at walks
    cases walks

/-- A scan is answered well exactly if it ends well. -/
theorem finished_iff (path : Path.Text) (own : Bool) (listing : Listing) :
    (session.step (.scan path own)).1 = .finished (.ok ()) listing ↔
      ∃ after, Scan.scan session.files path own session.catalog = .ok () after ∧
        (session.setCatalog after).currentListing = listing := by
  cases ran : Scan.scan session.files path own session.catalog with
  | ok value after => simp [step_scan_of_ok ran]
  | error error after =>
      change (session.runScan (Scan.scan session.files path own)).1 = _ ↔ _
      simp [runScan, ran]

/-- Catalogs of which the same is seen are shown alike. -/
theorem showsAlike_of_view (there : session.registries[session.current]? = some session.registry)
    {first second : Catalog} (firstKept : first.WellKept) (secondKept : second.WellKept)
    (same : first.view session.files = second.view session.files)
    (streams : ∀ key, first.registry.openResource session.files key =
      second.registry.openResource session.files key) :
    (session.setCatalog first).ShowsAlike (session.setCatalog second) := by
  have inside := (Array.getElem?_eq_some_iff.mp there).1
  have placed (catalog : Catalog) := registry_setCatalog catalog inside
  have resources := Catalog.readResource_eq_of_view same
  have classes := Catalog.class?_eq_of_view same
  constructor
  · rw [placed, placed]
    exact Catalog.resourceKeys_eq_of_view same
  · rw [placed, placed]
    exact Catalog.classNames_eq_of_view firstKept secondKept same
  · intro name
    rw [placed, placed]
    exact classes name
  · intro key
    rw [placed, placed]
    exact resources key
  · intro key
    rw [placed, placed]
    exact streams key
  · intro name
    rw [placed, placed]
    change Registry.readClass first.registry session.files first.objects name =
      Registry.readClass second.registry session.files second.objects name
    have found : first.registry.class? first.objects name =
        second.registry.class? second.objects name := classes name
    unfold Registry.readClass
    rw [found]
    cases second.registry.class? second.objects name with
    | none => rfl
    | some object => exact resources object.file.source

/-- Two scans that add the same readable files lead to sessions that show the same. -/
theorem showsAlike_of_additions (reachable : session.Reachable)
    (walks : session.registry.walker = some FileTree.walk) {own : Bool} {first second : Catalog}
    {leaves : List Leaf}
    (rootRan : Scan.scan session.files root own session.catalog = .ok () first)
    (jarRan : Scan.scan session.files jar own session.catalog = .ok () second)
    (rootSeen : some (first.view session.files) =
      View.gain (some (session.catalog.view session.files))
        (Addition.together (Addition.ofNamed? own) (leaves.map Leaf.named)))
    (jarSeen : some (second.view session.files) =
      View.gain (some (session.catalog.view session.files))
        (Addition.together (Addition.ofNamed? own) (leaves.map Leaf.named))) :
    (session.setCatalog first).ShowsAlike (session.setCatalog second) := by
  have kept := reachable.wellKept.catalog
  have rootGrown := Scan.grows_of_ok (Scan.growing_scan session.files root own _ kept) rootRan
  have jarGrown := Scan.grows_of_ok (Scan.growing_scan session.files jar own _ kept) jarRan
  have same : first.view session.files = second.view session.files :=
    Option.some.inj (rootSeen.trans jarSeen.symm)
  have readable : ∀ key, (first.view session.files).contents key =
      (session.catalog.view session.files).contents key ∨
        ∃ bytes, (first.view session.files).contents key = some (.ok bytes) := by
    cases adds : Addition.together (Addition.ofNamed? own) (leaves.map Leaf.named) with
    | none =>
        rw [adds] at rootSeen
        cases rootSeen
    | some additions =>
        rw [adds] at rootSeen
        exact View.contents_gain (Addition.readable_together adds) rootSeen.symm
  exact showsAlike_of_view (there_of_walks walks) (Catalog.Grows.wellKept rootGrown kept)
    (Catalog.Grows.wellKept jarGrown kept) same
    (Catalog.openResource_eq_of_view (Catalog.Grows.keeps rootGrown)
      (Catalog.Grows.keeps jarGrown) same readable)

/-- Whatever was done in a session whose registry walks directories: a directory and an archive of
the same files can both be scanned, or neither can. If they can, they are answered with the same
keys and names, and the registry shows the same after either. -/
theorem directory_scans_as_archive (reachable : session.Reachable)
    (walks : session.registry.walker = some FileTree.walk)
    (walkable : session.files.Walkable root children)
    (ordinary : ∀ leaf ∈ (Node.directory children).leaves, leaf.IsOrdinary)
    (isArchive : Path.extension? jar = some "jar" ∨ Path.extension? jar = some "zip")
    (opened : Archive.openAt session.files jar = .ok archive)
    (packed : archive.Packs (Node.directory children).leaves) (own : Bool) (listing : Listing) :
    ((session.step (.scan root own)).1 = .finished (.ok ()) listing ↔
      (session.step (.scan jar own)).1 = .finished (.ok ()) listing) ∧
    ((session.step (.scan root own)).1 = .finished (.ok ()) listing →
      (session.step (.scan root own)).2.ShowsAlike (session.step (.scan jar own)).2) := by
  have kept := reachable.wellKept.catalog
  have rootSeen : Scan.seen session.files (Scan.scan session.files root own session.catalog) = _ :=
    (Scan.contributes_scan session.files _ root own session.catalog kept walks).trans
      (Addition.gain_directory walkable ordinary own _)
  have jarSeen : Scan.seen session.files (Scan.scan session.files jar own session.catalog) = _ :=
    (Scan.contributes_scan session.files _ jar own session.catalog kept rfl).trans
      (Addition.gain_archive isArchive opened packed _ own _)
  -- What is seen after a scan tells whether it ended well, so that both end alike.
  have same := rootSeen.trans jarSeen.symm
  cases rootRan : Scan.scan session.files root own session.catalog with
  | error error before =>
      cases jarRan : Scan.scan session.files jar own session.catalog with
      | error jarError after => simp [finished_iff, rootRan, jarRan]
      | ok value second =>
          rw [rootRan, jarRan] at same
          cases same
  | ok value first =>
      cases jarRan : Scan.scan session.files jar own session.catalog with
      | error jarError after =>
          rw [rootRan, jarRan] at same
          cases same
      | ok value second =>
          rw [rootRan] at rootSeen
          rw [jarRan] at jarSeen
          have alike := showsAlike_of_additions reachable walks rootRan jarRan rootSeen jarSeen
          have listings : (session.setCatalog first).currentListing =
              (session.setCatalog second).currentListing := by
            rw [currentListing, currentListing, alike.resourceKeys, alike.classNames]
          rw [step_scan_of_ok rootRan, step_scan_of_ok jarRan, listings]
          exact ⟨Iff.rfl, fun _ => alike⟩

/-- A directory, and an archive beside it. -/
def packedFiles (name : Path.Text) (children : List (Path.Text × Node)) (bytes : Bytes) :
    FileTree :=
  ⟨.directory [(name, .directory children), ("a.jar", .file bytes)], []⟩

/-- A session that is to scan one of them. -/
def packing (name : Path.Text) (children : List (Path.Text × Node)) (bytes : Bytes) : Session :=
  ((start (packedFiles name children bytes)).step (.newRegistry true)).2

section Packing

variable {name : Path.Text} {bytes : Bytes} {leaves : List Leaf}

theorem isName_jar : IsName "a.jar" := by decide

theorem extension?_jar : Path.extension? "a.jar" = some "jar" :=
  (Path.extension?_eq_some_iff _ _).mpr (by decide)

theorem find_packed (named : IsName name) :
    (packedFiles name children bytes).find name = .ok (.directory children) :=
  FileTree.find_child named List.lookup_cons_self

theorem find_jar (apart : name ≠ "a.jar") :
    (packedFiles name children bytes).find "a.jar" = .ok (.file bytes) := by
  have there : [(name, Node.directory children), ("a.jar", .file bytes)].lookup
      ("a.jar" : Path.Text) = some (.file bytes) := by
    rw [lookup_cons_of_ne (Ne.symm apart), List.lookup_cons_self]
  exact FileTree.find_child isName_jar there

/-- Names with what is read behind them are told from what can be read. -/
theorem eq_of_toOption {rows : List (String × Except Error Bytes)} {leaves : List Leaf}
    (same : rows.map (fun row => (row.1, row.2.toOption)) =
      leaves.map fun leaf => (leaf.key, some leaf.content)) : rows = leaves.map Leaf.named := by
  induction rows generalizing leaves with
  | nil =>
      rw [List.map_nil, eq_comm, List.map_eq_nil_iff] at same
      rw [same, List.map_nil]
  | cons row rest ih =>
      obtain ⟨name, contents⟩ := row
      cases leaves with
      | nil => cases same
      | cons leaf others =>
          obtain ⟨first, behind⟩ := List.cons.inj same
          obtain ⟨named, read⟩ := Prod.mk.inj first
          cases contents with
          | error error => cases read
          | ok found =>
              rw [List.map_cons, ih behind, Leaf.named, ← named, ← Option.some.inj read]

/-- What an archive of these bytes has in it, by name. -/
def unpacked (bytes : Bytes) : Option (List (String × Option Bytes)) :=
  (ZipFile.ofBytes? bytes).bind fun file =>
    let archive : Archive := ⟨"a.jar", file, true⟩
    archive.members.toOption.map fun listed =>
      (archive.named listed).map fun row => (row.1, row.2.toOption)

theorem exists_packs (apart : name ≠ "a.jar")
    (evaluated : unpacked bytes = some (leaves.map fun leaf => (leaf.key, some leaf.content))) :
    ∃ archive, Archive.openAt (packedFiles name children bytes) "a.jar" = .ok archive ∧
      archive.Packs leaves := by
  unfold unpacked at evaluated
  cases read : ZipFile.ofBytes? bytes with
  | none =>
      rw [read] at evaluated
      cases evaluated
  | some file =>
      rw [read, Option.bind_some] at evaluated
      dsimp only at evaluated
      refine ⟨⟨"a.jar", file, true⟩, ?_, ?_⟩
      · rw [Archive.openAt, find_jar apart]
        dsimp only
        rw [read]
      · cases members : (⟨"a.jar", file, true⟩ : Archive).members with
        | error error =>
            rw [members] at evaluated
            cases evaluated
        | ok listed =>
            rw [members] at evaluated
            exact ⟨listed, members, List.Perm.of_eq (eq_of_toOption (Option.some.inj evaluated))⟩

/-- An archive that packs what there is room for is scanned. -/
theorem exists_scan_jar (apart : name ≠ "a.jar")
    (evaluated : unpacked bytes = some (leaves.map fun leaf => (leaf.key, some leaf.content)))
    {view : View} (gained : View.gain
      (some ((packing name children bytes).catalog.view (packedFiles name children bytes)))
      (Addition.together (Addition.ofNamed? true) (leaves.map Leaf.named)) = some view) :
    ∃ after : Catalog, (packing name children bytes).step (.scan "a.jar" true) =
        (.finished (.ok ()) ((packing name children bytes).setCatalog after).currentListing,
          (packing name children bytes).setCatalog after) ∧
      after.view (packedFiles name children bytes) = view := by
  obtain ⟨archive, opened, packed⟩ := exists_packs apart evaluated
  have kept : (packing name children bytes).catalog.WellKept := .empty #[] _
  have seen : Scan.seen (packedFiles name children bytes)
      (Scan.scan (packedFiles name children bytes) "a.jar" true
        (packing name children bytes).catalog) = some view := by
    rw [Scan.contributes_scan _ _ "a.jar" true _ kept rfl,
      Addition.gain_archive (Or.inl extension?_jar) opened packed, gained]
  cases ran : Scan.scan (packedFiles name children bytes) "a.jar" true
      (packing name children bytes).catalog with
  | error error after =>
      rw [ran] at seen
      cases seen
  | ok value after =>
      rw [ran] at seen
      exact ⟨after, step_scan_of_ok ran, Option.some.inj seen⟩

end Packing

/-! A class file, and a directory with a file without contents; and an archive of the two. -/

def stacked : List (Path.Text × Node) :=
  [("A.class", .file (RawClass.letter 0x41).encode), ("s", .directory [("n", .file [])])]

/-- What a member is told by in front of its contents and in the directory of an archive: its
checksum, its size twice, and the length of its name. -/
def storedFields (name contents checksum : Bytes) : Bytes :=
  let size : Bytes := [contents.length.toUInt8, 0, 0, 0]
  checksum ++ size ++ size ++ [name.length.toUInt8, 0, 0, 0]

/-- A member whose contents are stored as they are. -/
def storedMember (name contents checksum : Bytes) : Bytes :=
  Zip.localSignature ++ List.replicate 10 0 ++ storedFields name contents checksum ++ name ++
    contents

/-- The record of such a member that begins at `start`. -/
def storedRecord (start : UInt8) (name contents checksum : Bytes) : Bytes :=
  Zip.memberSignature ++ List.replicate 12 0 ++ storedFields name contents checksum ++
    List.replicate 10 0 ++ [start, 0, 0, 0] ++ name

def stackedArchive : Bytes :=
  let classFile := (RawClass.letter 0x41).encode
  let checksum := [0xCA, 0xB6, 0xE3, 0x39]
  let className := ("A.class" : Path.Text).bytes
  let name := ("s/n" : Path.Text).bytes
  let members := storedMember className classFile checksum ++ storedMember name [] [0, 0, 0, 0]
  let start := (storedMember className classFile checksum).length.toUInt8
  let directory := storedRecord 0 className classFile checksum ++
    storedRecord start name [] [0, 0, 0, 0]
  members ++ directory ++ Zip.endSignature ++ List.replicate 4 0 ++
    [2, 0, 2, 0, directory.length.toUInt8, 0, 0, 0, members.length.toUInt8, 0, 0, 0, 0, 0]

theorem leaves_stacked : (Node.directory stacked).leaves =
    [⟨["A.class"], (RawClass.letter 0x41).encode⟩, ⟨["s", "n"], []⟩] := by
  simp [stacked, Node.leaves, Node.leavesOfChildren, Leaf.below]

theorem unpacked_stackedArchive : unpacked stackedArchive =
    some ((Node.directory stacked).leaves.map fun leaf => (leaf.key, some leaf.content)) := by
  rw [leaves_stacked]
  decide +kernel

/-- The tree is walked whole under a name of one letter. -/
theorem walkable_stacked : (packedFiles "d" stacked stackedArchive).Walkable "d" stacked where
  found := by
    have named : IsName "d" := by decide
    exact find_packed named
  tree := by
    have classFile : IsName "A.class" := by decide
    have inner : IsName "s" := by decide
    have deep : IsName "n" := by decide
    have apart : ("A.class" : Path.Text) ≠ "s" := by decide
    simp [stacked, Node.IsTree, Node.AreTrees, classFile, inner, deep, apart]
  notInput := by decide
  opens := by decide
  fits := by
    rw [leaves_stacked]
    decide

theorem ordinary_stacked : ∀ leaf ∈ (Node.directory stacked).leaves, leaf.IsOrdinary := by
  rw [leaves_stacked]
  intro leaf among name last
  rcases List.mem_pair.mp among with rfl | rfl
  · cases last
    decide +kernel
  · cases last
    decide +kernel

/-- What the archive adds has room in a fresh registry. -/
theorem exists_gain_stacked (files : FileTree) : ∃ (object : ClassObject) (view : View),
    View.gain (some ((⟨Registry.empty (some FileTree.walk), #[]⟩ : Catalog).view files))
      (Addition.together (Addition.ofNamed? true)
        ((Node.directory stacked).leaves.map Leaf.named)) = some view ∧
      object.file.name = "A" ∧ view.classes "A" = some object ∧
      view.contents "s/n" = some (.ok []) := by
  obtain ⟨cls, parsed, describes, _⟩ :=
    ClassFile.exists_parse (RawClass.letter_resolvable 0x41) [] true "A.class"
  rw [List.append_nil] at parsed
  have named : cls.name = "A" :=
    Option.some.inj (describes.name.symm.trans RawClass.letter_named.1)
  have isClass : Scan.isClassName "A.class" = true := by decide
  have plain : Scan.isClassName "s/n" = false := by decide
  let start := (⟨Registry.empty (some FileTree.walk), #[]⟩ : Catalog).view files
  let object : ClassObject := ⟨cls, some (RawClass.letter 0x41).pool.pool⟩
  let first : Addition := ⟨"A.class", .ok (RawClass.letter 0x41).encode, some object⟩
  let second : Addition := ⟨"s/n", .ok [], none⟩
  have additions : Addition.together (Addition.ofNamed? true)
      ((Node.directory stacked).leaves.map Leaf.named) = some [first, second] := by
    rw [leaves_stacked]
    simp [Addition.together, Addition.ofNamed?, Addition.ofClass?, Addition.both, Leaf.named,
      Leaf.key, isClass, plain, parsed, first, second, object]
  have fits : (start.isFree first && start.isFree second && first.isApart second) = true := by
    simp [start, Catalog.view_empty, View.isFree, Addition.isApart, first, second]
  refine ⟨object, (start.put first).put second, ?_, named, ?_, ?_⟩
  · rw [additions, View.gain, Option.bind_some, List.foldl_cons, List.foldl_cons, List.foldl_nil,
      View.take_take, if_pos fits]
  · change Function.update _ cls.name _ _ = _
    rw [named, Function.update_self]
  · simp [View.put, second]

/-- A class and a file in a directory of its own are there after scanning the directory just as
after scanning the archive. -/
theorem directory_scans_as_archive_specimen :
    let session := packing "d" stacked stackedArchive
    session.Reachable ∧ session.files.Walkable "d" stacked ∧
    ∃ (listing : Listing) (object : ClassObject),
      (session.step (.scan "d" true)).1 = .finished (.ok ()) listing ∧
      (session.step (.scan "a.jar" true)).1 = .finished (.ok ()) listing ∧
      (session.step (.scan "d" true)).2.ShowsAlike (session.step (.scan "a.jar" true)).2 ∧
      (session.step (.scan "a.jar" true)).2.catalog.class? "A" = some object ∧
      object.file.name = "A" ∧
      (session.step (.scan "a.jar" true)).2.registry.readResource session.files "s/n" =
        .ok (some []) := by
  intro session
  have reachable : session.Reachable := .step _ (.start _)
  have apart : ("d" : Path.Text) ≠ "a.jar" := by decide
  obtain ⟨archive, opened, packed⟩ := exists_packs apart unpacked_stackedArchive
  obtain ⟨object, view, gained, named, found, read⟩ := exists_gain_stacked session.files
  obtain ⟨after, ended, view_eq⟩ := exists_scan_jar apart unpacked_stackedArchive gained
  have seen : after.view session.files = view := view_eq
  obtain ⟨ends_iff, alike⟩ := directory_scans_as_archive reachable rfl walkable_stacked
    ordinary_stacked (Or.inl extension?_jar) opened packed true _
  have jarEnded := congrArg Prod.fst ended
  refine ⟨reachable, walkable_stacked, _, object, ends_iff.mpr jarEnded, jarEnded,
    alike (ends_iff.mpr jarEnded), ?_, named, ?_⟩
  · rw [ended]
    change (after.view session.files).classes "A" = _
    rw [seen, found]
  · rw [ended]
    change after.registry.readResource session.files "s/n" = _
    rw [Catalog.readResource_eq, seen, read]
    rfl

/-- A directory of a file without contents under the name of a lone dash: it can be read and
scanned, but the file is no resource then. Scanning an archive of the file makes it one. -/
theorem lone_dash_scans_as_empty :
    let session := packing "-" [("n", .file [])] archiveSpecimen
    let files := packedFiles "-" [("n", .file [])] archiveSpecimen
    session.Reachable ∧ session.registry.walker = some FileTree.walk ∧
    files.find "-" = .ok (.directory [("n", .file [])]) ∧
    (Node.directory [("n", .file [])]).IsTree ∧
    (Node.directory [("n", .file [])]).canBeWalked "-" = true ∧
    files.read "-/n" = .ok [] ∧
    (∀ leaf ∈ (Node.directory [("n", .file [])]).leaves, leaf.IsOrdinary) ∧
    (∃ archive, Archive.openAt files "a.jar" = .ok archive ∧
      archive.Packs (Node.directory [("n", .file [])]).leaves) ∧
    (∃ listing, (session.step (.scan "-" true)).1 = .finished (.ok ()) listing) ∧
    (∃ listing, (session.step (.scan "a.jar" true)).1 = .finished (.ok ()) listing) ∧
    (session.step (.scan "-" true)).2.registry.readResource files "n" = .ok none ∧
    (session.step (.scan "a.jar" true)).2.registry.readResource files "n" = .ok (some []) := by
  intro session files
  have named : IsName "-" := by decide
  have inner : IsName "n" := by decide
  have apart : ("-" : Path.Text) ≠ "a.jar" := by decide
  have found : files.find "-" = .ok (.directory [("n", .file [])]) := find_packed named
  have leaves : (Node.directory [("n", .file [])]).leaves = [⟨["n"], []⟩] := by
    simp [Node.leaves, Node.leavesOfChildren, Leaf.below]
  have ordinary : ∀ leaf ∈ (Node.directory [("n", .file [])]).leaves, leaf.IsOrdinary := by
    rw [leaves]
    intro leaf among name last
    rw [List.mem_singleton.mp among] at last
    cases last
    decide
  have evaluated : unpacked archiveSpecimen = some
      ((Node.directory [("n", .file [])]).leaves.map fun leaf => (leaf.key, some leaf.content)) := by
    rw [leaves]
    decide +kernel
  have start : session.catalog.view files = ⟨fun _ => none, fun _ => none⟩ :=
    Catalog.view_empty files _
  have ran : Scan.scan session.files "-" true session.catalog = .ok () session.catalog :=
    Scan.scan_standardInput rfl found (by decide) true
  have ended : session.step (.scan "-" true) = _ := step_scan_of_ok ran
  have nothing : (session.step (.scan "-" true)).2.registry.readResource files "n" = .ok none := by
    rw [ended]
    change session.catalog.registry.readResource files "n" = _
    rw [Catalog.readResource_eq, start]
  have plain : Scan.isClassName "n" = false := by decide
  have additions : Addition.together (Addition.ofNamed? true)
      ((Node.directory [("n", .file [])]).leaves.map Leaf.named) = some [⟨"n", .ok [], none⟩] := by
    simp [leaves, Addition.together, Addition.ofNamed?, Addition.both, Leaf.named, Leaf.key, plain]
  have gained : View.gain (some (session.catalog.view files))
      (Addition.together (Addition.ofNamed? true)
        ((Node.directory [("n", .file [])]).leaves.map Leaf.named)) =
      some ((session.catalog.view files).put ⟨"n", .ok [], none⟩) := by
    simp [additions, View.gain, View.take, View.isFree, start]
  obtain ⟨after, jarEnded, view_eq⟩ := exists_scan_jar apart evaluated gained
  have seen : after.view files = (session.catalog.view files).put ⟨"n", .ok [], none⟩ := view_eq
  have jarRead : (session.step (.scan "a.jar" true)).2.registry.readResource files "n" =
      .ok (some []) := by
    rw [jarEnded]
    change after.registry.readResource files "n" = _
    rw [Catalog.readResource_eq, seen]
    simp [View.put]
  exact ⟨.step _ (.start _), rfl, found, by simp [Node.IsTree, Node.AreTrees, inner],
    by decide, by rfl, ordinary, exists_packs apart evaluated,
    ⟨_, congrArg Prod.fst ended⟩, ⟨_, congrArg Prod.fst jarEnded⟩, nothing, jarRead⟩

end Session

end Classpath
