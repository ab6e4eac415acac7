import Classpath.Proofs.Files.Ordering
import Classpath.Proofs.Registry.Reaching

/-!
Scanning what a walk lists. The files of a tree are listed each once and in the order of their
names. Their keys are the texts of these names, and different where the texts are; then no file of
a tree without archives takes the key of another.

Main statements: `FileTree.walk_lists_in_order` and `FileTree.walk_collides`, where names that are
no texts come to one key or two files hold one class.
-/

set_option autoImplicit false

namespace Classpath

open Classpath.Path (IsName joinAll)

namespace Scan

variable {files : FileTree} {key : String} {path root : Path.Text} {own : Bool}
  {catalog after : Catalog} {error : Error}

/-- Why the class in a file does not go in behind the file's key: the file is not read or no class,
or a class of the name is there already. -/
inductive ClassFault (files : FileTree) (key : String) (path : Path.Text) : Error → Prop
  | unread (cause : Cause) (failed : files.read path = .error cause) :
      ClassFault files key path ((Error.ofCause cause).within (.readingFile path))
  | unparsed (bytes : Bytes) (own : Bool) (error : Error) (read : files.read path = .ok bytes)
      (failed : ClassFile.parse bytes own key = .error error) : ClassFault files key path error
  | duplicate (name : String) : ClassFault files key path (.ofCause (.duplicateClass name))

/-- Why a file that is no archive is not added: its key is taken, or else the class in it is at
fault. -/
def Fault (files : FileTree) (key : String) (path : Path.Text) (catalog : Catalog) (error : Error) :
    Prop :=
  (∃ current, catalog.registry.entries[key]? = some current ∧
    error = .ofCause (.duplicateResource key path current.text)) ∨
  (catalog.registry.entries[key]? = none ∧ ClassFault files key path error)

/-- A file that is no archive is added with its class, or without one, or not at all. -/
theorem scanFile_cases (plain : ¬ Path.IsArchive path) :
    scanFile files key path own = (do
        addResource key (.file path)
        addClass files key own) ∨
      scanFile files key path own = addResource key (.file path) ∨
      scanFile files key path own = pure () := by
  unfold scanFile
  split
  · exact Or.inl rfl
  · rename_i extended
    exact absurd (Or.inl extended) plain
  · rename_i extended
    exact absurd (Or.inr extended) plain
  · cases own with
    | true => exact Or.inr (Or.inl rfl)
    | false => exact Or.inr (Or.inr rfl)

theorem fault_of_scanFile (plain : ¬ Path.IsArchive path)
    (failed : scanFile files key path own catalog = .error error after) :
    Fault files key path catalog error := by
  rcases scanFile_cases plain with both | alone | nothing
  · rw [both, addBoth_eq] at failed
    cases there : catalog.registry.entries[key]? with
    | some current =>
        rw [there] at failed
        cases failed
        exact Or.inl ⟨current, there, rfl⟩
    | none =>
        refine Or.inr ⟨there, ?_⟩
        rw [there] at failed
        dsimp only [Entry.read] at failed
        cases read : files.read path with
        | error cause =>
            rw [read] at failed
            cases failed
            exact .unread cause read
        | ok bytes =>
            rw [read] at failed
            dsimp only [Except.mapError] at failed
            cases parsed : ClassFile.parse bytes own key with
            | error reason =>
                rw [parsed] at failed
                cases failed
                exact .unparsed bytes own _ read parsed
            | ok found =>
                obtain ⟨file, pool⟩ := found
                rw [parsed] at failed
                dsimp only at failed
                split at failed
                · cases failed
                  exact .duplicate file.name
                · cases failed
  · rw [alone, addResource_eq] at failed
    cases there : catalog.registry.entries[key]? with
    | some current =>
        rw [there] at failed
        cases failed
        exact Or.inl ⟨current, there, rfl⟩
    | none =>
        rw [there] at failed
        cases failed
  · rw [nothing] at failed
    cases failed

/-- A file that is no archive touches no key but its own. -/
theorem entries_of_scanFile (plain : ¬ Path.IsArchive path) {other : String} (apart : key ≠ other)
    (ran : scanFile files key path own catalog = .ok () after) :
    after.registry.entries[other]? = catalog.registry.entries[other]? := by
  have entered : (catalog.enter key (.file path)).registry.entries[other]? =
      catalog.registry.entries[other]? := Catalog.entries_enter_of_ne apart
  rcases scanFile_cases plain with both | alone | nothing
  · rw [both, addBoth_eq] at ran
    split at ran
    · cases ran
    split at ran
    · cases ran
    split at ran
    · cases ran
    split at ran
    · cases ran
    · cases ran
      exact entered
  · rw [alone, addResource_eq] at ran
    split at ran
    · cases ran
    · cases ran
      exact entered
  · rw [nothing] at ran
    cases ran
    rfl

/-- Of files under different keys none takes the key of another: the one that is not added is at
fault with what there was before all of them. -/
theorem fault_of_scanFiles {paths : List Path.Text}
    (apart : (paths.map (Path.relativeKey root)).Nodup)
    (plain : ∀ path ∈ paths, ¬ Path.IsArchive path)
    (failed : scanFiles files root own paths catalog = .error error after) :
    ∃ path ∈ paths, Fault files (Path.relativeKey root path) path catalog error := by
  induction paths generalizing catalog with
  | nil => cases failed
  | cons path rest ih =>
      obtain ⟨absent, restApart⟩ := List.nodup_cons.mp apart
      have first := plain path List.mem_cons_self
      cases ran : scanFile files (Path.relativeKey root path) path own catalog with
      | error reason between =>
          rw [scanFiles] at failed
          change EStateM.bind _ _ catalog = _ at failed
          rw [EStateM.bind, ran] at failed
          cases failed
          exact ⟨path, List.mem_cons_self, fault_of_scanFile first ran⟩
      | ok value between =>
          rw [scanFiles, bind_of_ok ran] at failed
          obtain ⟨other, among, fault⟩ := ih restApart
            (fun later among => plain later (List.mem_cons_of_mem _ among)) failed
          have keys : Path.relativeKey root path ≠ Path.relativeKey root other := by
            intro same
            exact absent (same ▸ List.mem_map_of_mem among)
          rw [Fault, entries_of_scanFile first keys ran] at fault
          exact ⟨other, List.mem_cons_of_mem _ among, fault⟩

end Scan

/-- A directory that has been walked is scanned file by file. -/
theorem Scan.scan_of_walk {files : FileTree} {root : Path.Text}
    {children : List (Path.Text × Node)} {paths : List Path.Text} {catalog : Catalog} (own : Bool)
    (walks : catalog.registry.walker = some FileTree.walk)
    (found : files.find root = .ok (.directory children))
    (walked : files.walk root = .ok paths) :
    scan files root own catalog = scanFiles files root own paths catalog := by
  have directory : files.isDirectory root = true := by rw [FileTree.isDirectory, found]
  rw [scan, if_pos directory, scanDirectory_eq, walks]
  dsimp only
  rw [walked]

namespace Path

/-- Texts without slashes are told from what is put together of them with slashes between. -/
theorem eq_of_intercalate {texts others : List String} (filled : texts ≠ []) (more : others ≠ [])
    (plain : ∀ text ∈ texts, '/' ∉ text.toList) (otherPlain : ∀ text ∈ others, '/' ∉ text.toList)
    (same : "/".intercalate texts = "/".intercalate others) : texts = others := by
  have whole {texts : List String} (filled : texts ≠ [])
      (plain : ∀ text ∈ texts, '/' ∉ text.toList) :
      ("/".intercalate texts).toList.splitOn '/' = texts.map String.toList := by
    rw [String.toList_intercalate]
    apply List.splitOn_intercalate
    · simpa only [List.forall_mem_map] using plain
    · simpa only [ne_eq, List.map_eq_nil_iff] using filled
  have split := congrArg (fun text => text.toList.splitOn '/') same
  rw [whole filled plain, whole more otherPlain] at split
  exact List.map_injective_iff.mpr (fun _ _ => String.toList_injective) split

end Path

namespace Node

variable {root : Path.Text} {children : List (Path.Text × Node)}

/-- The key of a file below a root does not show how the root is written. -/
theorem relativeKey_leaf (present : root.bytes ≠ []) (tree : (directory children).IsTree)
    {leaf : Leaf} (among : leaf ∈ (directory children).leaves) :
    Path.relativeKey root (joinAll root leaf.names) = leaf.key :=
  Path.relativeKey_joinAll present (isName_of_leaf _ tree leaf among)

/-- Files below a directory have one key just if their names have the same texts. -/
theorem key_eq_iff (tree : (directory children).IsTree) {leaf other : Leaf}
    (among : leaf ∈ (directory children).leaves)
    (otherAmong : other ∈ (directory children).leaves) :
    leaf.key = other.key ↔ leaf.names.map Path.Text.shown = other.names.map Path.Text.shown := by
  have filled {leaf : Leaf} (among : leaf ∈ (directory children).leaves) :
      leaf.names.map Path.Text.shown ≠ [] := by
    rw [ne_eq, List.map_eq_nil_iff]
    exact names_ne_nil among
  have plain {leaf : Leaf} (among : leaf ∈ (directory children).leaves) :
      ∀ text ∈ leaf.names.map Path.Text.shown, '/' ∉ text.toList := by
    rw [List.forall_mem_map]
    exact fun name inside => (isName_of_leaf _ tree leaf among name inside).plain_shown
  constructor
  · exact Path.eq_of_intercalate (filled among) (filled otherAmong) (plain among)
      (plain otherAmong)
  · exact congrArg "/".intercalate

/-- Names that are texts are told from these. -/
theorem names_eq_of_shown {names others : List Path.Text} (texts : ∀ name ∈ names, name.IsText)
    (otherTexts : ∀ name ∈ others, name.IsText)
    (same : names.map Path.Text.shown = others.map Path.Text.shown) : names = others := by
  have back {names : List Path.Text} (texts : ∀ name ∈ names, name.IsText) :
      (names.map Path.Text.shown).map Path.Text.ofString = names := by
    have each : names.map (Path.Text.ofString ∘ Path.Text.shown) = names.map id :=
      List.map_congr_left fun name among => Path.Text.ofString_shown (texts name among)
    rw [List.map_map, each, List.map_id]
  rw [← back texts, same, back otherTexts]

theorem inOrder_keys_nodup (tree : (directory children).IsTree)
    (texts : ∀ leaf ∈ (directory children).inOrder, ∀ name ∈ leaf.names, name.IsText) :
    ((directory children).inOrder.map Leaf.key).Nodup := by
  apply List.pairwise_map.mpr
  apply (inOrder_pairwise _ tree).imp_of_mem
  intro leaf other among otherAmong less same
  have shown := (key_eq_iff tree ((inOrder_perm _).mem_iff.mp among)
    ((inOrder_perm _).mem_iff.mp otherAmong)).mp same
  rw [names_eq_of_shown (texts leaf among) (texts other otherAmong) shown] at less
  exact absurd less (List.lt_irrefl _)

end Node

namespace FileTree

/-- A visit comes by all that is below a directory, unless its path is a lone dash or some directory
in it cannot be opened. -/
theorem visit_eq {files : FileTree} {root : Path.Text} {node : Node}
    (found : files.find root = .ok node) (notInput : isStandardInput root = false)
    (opens : node.canBeWalked root = true) : files.visit root = .ok (node.entriesAt root) := by
  simp [visit, notInput, found, opens]

/-- A directory that a visit comes through is walked file by file, in the order of the bytes of
their names, and each file is listed once. A file's key is the texts of its names with slashes
between them however the directory's path is written, so that two files have one key just if their
names have the same texts, and none do where all names are texts. A path that is listed leads to its
file unless it is too long. If no two keys are the same, a scan of a directory without archives
fails for a key only if that was registered before the scan. -/
theorem walk_lists_in_order {files : FileTree} {root : Path.Text}
    {children : List (Path.Text × Node)} (found : files.find root = .ok (.directory children))
    (tree : (Node.directory children).IsTree)
    (visited : files.visit root = .ok ((Node.directory children).entriesAt root)) :
    ∃ leaves : List Leaf,
      files.walk root = .ok (leaves.map fun leaf => joinAll root leaf.names) ∧
      (∀ names content, (⟨names, content⟩ : Leaf) ∈ leaves ↔
        (Node.directory children).at? names = some (.file content)) ∧
      leaves.Pairwise (fun leaf other =>
        leaf.names.map Path.Text.bytes < other.names.map Path.Text.bytes) ∧
      (∀ leaf ∈ leaves, Path.relativeKey root (joinAll root leaf.names) =
        "/".intercalate (leaf.names.map Path.Text.shown)) ∧
      (∀ leaf ∈ leaves, ∀ other ∈ leaves,
        Path.relativeKey root (joinAll root leaf.names) =
            Path.relativeKey root (joinAll root other.names) ↔
          leaf.names.map Path.Text.shown = other.names.map Path.Text.shown) ∧
      ((∀ leaf ∈ leaves, ∀ name ∈ leaf.names, name.IsText) →
        (leaves.map fun leaf => Path.relativeKey root (joinAll root leaf.names)).Nodup) ∧
      (∀ leaf ∈ leaves, (joinAll root leaf.names).bytes.length ≤ maxPathSize →
        files.read (joinAll root leaf.names) = .ok leaf.content) ∧
      ((leaves.map fun leaf => Path.relativeKey root (joinAll root leaf.names)).Nodup →
        (∀ leaf ∈ leaves, ¬ Path.IsArchive (joinAll root leaf.names)) →
        ∀ (own : Bool) (catalog after : Catalog) (error : Error),
          catalog.registry.walker = some walk →
          Scan.scan files root own catalog = .error error after →
          ∃ leaf ∈ leaves, Scan.Fault files ("/".intercalate (leaf.names.map Path.Text.shown))
            (joinAll root leaf.names) catalog error) := by
  have present := ((find_eq_ok_iff root).mp found).1
  have walked := walk_eq visited
  have mem_iff := fun leaf : Leaf => (Node.inOrder_perm (.directory children)).mem_iff (a := leaf)
  have keyed : ∀ leaf ∈ (Node.directory children).inOrder,
      Path.relativeKey root (joinAll root leaf.names) = leaf.key :=
    fun leaf among => Node.relativeKey_leaf present tree ((mem_iff leaf).mp among)
  have keys : (Node.directory children).inOrder.map
      (fun leaf => Path.relativeKey root (joinAll root leaf.names)) =
        (Node.directory children).inOrder.map Leaf.key := List.map_congr_left keyed
  refine ⟨(Node.directory children).inOrder, walked, ?_, Node.inOrder_pairwise _ tree, keyed, ?_,
    ?_, ?_, ?_⟩
  · intro names content
    rw [mem_iff, Node.mem_leaves_iff _ tree]
  · intro leaf among other otherAmong
    rw [keyed leaf among, keyed other otherAmong]
    exact Node.key_eq_iff tree ((mem_iff leaf).mp among) ((mem_iff other).mp otherAmong)
  · intro texts
    rw [keys]
    exact Node.inOrder_keys_nodup tree texts
  · intro leaf among fits
    have below := (mem_iff leaf).mp among
    exact read_joinAll found tree below (Node.names_ne_nil below) fits
  · intro apart plain own catalog after error walks failed
    rw [Scan.scan_of_walk own walks found walked] at failed
    have distinct : (((Node.directory children).inOrder.map fun leaf =>
        joinAll root leaf.names).map (Path.relativeKey root)).Nodup := by
      rw [List.map_map]
      exact apart
    obtain ⟨path, among, fault⟩ := Scan.fault_of_scanFiles distinct
      (by simpa only [List.forall_mem_map] using plain) failed
    obtain ⟨leaf, leafAmong, rfl⟩ := List.mem_map.mp among
    rw [keyed leaf leafAmong] at fault
    exact ⟨leaf, leafAmong, fault⟩

end FileTree

/-- A directory with a directory and a file whose names begin alike. -/
def Node.branching : List (Path.Text × Node) :=
  [("a.txt", .file []), ("a", .directory [("z", .file [1])])]

theorem Node.branching_isTree : (directory branching).IsTree := by
  have text : IsName "a.txt" := by decide
  have inner : IsName "a" := by decide
  have deep : IsName "z" := by decide
  have apart : ("a.txt" : Path.Text) ≠ "a" := by decide
  simp [branching, IsTree, AreTrees, text, inner, deep, apart]

theorem FileTree.walk_lists_in_order_branching :
    let files : FileTree := ⟨.directory [("d", .directory Node.branching)], []⟩
    files.find "./d//" = .ok (.directory Node.branching) ∧
    ∃ leaves : List Leaf,
      files.walk "./d//" = .ok (leaves.map fun leaf => joinAll "./d//" leaf.names) ∧
      (⟨["a", "z"], [1]⟩ : Leaf) ∈ leaves ∧ (⟨["a.txt"], []⟩ : Leaf) ∈ leaves ∧
      Path.relativeKey "./d//" (joinAll "./d//" ["a", "z"]) = "a/z" := by
  intro files
  have found : files.find "./d//" = .ok (.directory Node.branching) := by rfl
  have notInput : isStandardInput "./d//" = false := by decide
  have opens : (Node.directory Node.branching).canBeWalked "./d//" = true := by decide
  obtain ⟨leaves, walked, mem_iff, _, keyed, _⟩ :=
    walk_lists_in_order found Node.branching_isTree (visit_eq found notInput opens)
  have deep : (⟨["a", "z"], [1]⟩ : Leaf) ∈ leaves := (mem_iff _ _).mpr (by rfl)
  have text : (⟨["a.txt"], []⟩ : Leaf) ∈ leaves := (mem_iff _ _).mpr (by rfl)
  refine ⟨found, leaves, walked, deep, text, (keyed _ deep).trans ?_⟩
  simp

section Pair

variable {files : FileTree} {root one other : Path.Text} {content otherContent : Bytes}

theorem Node.inOrder_pair (ordered : one.bytes ≤ other.bytes) :
    (directory [(one, .file content), (other, .file otherContent)]).inOrder =
      [⟨[one], content⟩, ⟨[other], otherContent⟩] := by
  simp only [inOrder, inOrderOfChildren, byName]
  rw [List.mergeSort_of_pairwise]
  · simp [Leaf.below]
  · simpa using ordered

theorem FileTree.visit_pair
    (found : files.find root =
      .ok (.directory [(one, .file content), (other, .file otherContent)]))
    (notInput : isStandardInput root = false) :
    files.visit root = .ok ((Node.directory
      [(one, .file content), (other, .file otherContent)]).entriesAt root) := by
  apply visit_eq found notInput
  simp [Node.canBeWalked, Node.childrenCanBeWalked, ((find_eq_ok_iff root).mp found).2.2.1]

/-- A directory of two files is walked from the one to the other. -/
theorem FileTree.walk_pair
    (found : files.find root =
      .ok (.directory [(one, .file content), (other, .file otherContent)]))
    (notInput : isStandardInput root = false) (ordered : one.bytes ≤ other.bytes) :
    files.walk root = .ok [Path.join root one, Path.join root other] := by
  rw [walk_eq (visit_pair found notInput), Node.inOrder_pair ordered]
  rfl

end Pair

/-- Two names that are no texts. -/
def Node.unspelled : List (Path.Text × Node) := [(⟨[0xFE]⟩, .file []), (⟨[0xFF]⟩, .file [])]

theorem Node.unspelled_isTree : (directory unspelled).IsTree := by
  have first : IsName ⟨[0xFE]⟩ := by decide
  have second : IsName ⟨[0xFF]⟩ := by decide
  simp [unspelled, IsTree, AreTrees, first, second]

/-- What a scan of such a directory reads off its paths. -/
theorem Path.unspelled_texts (one other : Path.Text) (isOne : one = Path.join "d" ⟨[0xFE]⟩)
    (isOther : other = Path.join "d" ⟨[0xFF]⟩) :
    (Path.relativeKey "d" one = "\uFFFD" ∧ Path.relativeKey "d" other = "\uFFFD") ∧
    (Entry.file one).text = "d/\uFFFD" ∧ (Entry.file other).text = "d/\uFFFD" := by
  subst isOne isOther
  decide +kernel

theorem RawClass.letter_named :
    (letter 0x41).pool.className? (letter 0x41).thisClass = some "A" ∧
      (letter 0x42).pool.className? (letter 0x42).thisClass = some "B" :=
  ⟨className?_letter (Text.ModifiedUtf8.decode_utf8Encode ['A']),
    className?_letter (Text.ModifiedUtf8.decode_utf8Encode ['B'])⟩

/-- Two files of one class. -/
def Node.twins : List (Path.Text × Node) :=
  [("A.class", .file (RawClass.letter 0x41).encode),
    ("B.class", .file (RawClass.letter 0x41).encode)]

theorem Node.twins_isTree : (directory twins).IsTree := by
  have first : IsName "A.class" := by decide
  have second : IsName "B.class" := by decide
  have apart : ("A.class" : Path.Text) ≠ "B.class" := by decide
  simp [twins, IsTree, AreTrees, first, second, apart]

/-- A directory collides with itself if two of its names that are no texts come to one key, or if
two of its files hold one class. -/
theorem FileTree.walk_collides :
    let fresh : Catalog := ⟨Registry.empty (some walk), #[]⟩
    (let files : FileTree := ⟨.directory [("d", .directory Node.unspelled)], []⟩
      let one := Path.join "d" ⟨[0xFE]⟩
      let other := Path.join "d" ⟨[0xFF]⟩
      files.find "d" = .ok (.directory Node.unspelled) ∧ (Node.directory Node.unspelled).IsTree ∧
        files.visit "d" = .ok ((Node.directory Node.unspelled).entriesAt "d") ∧
        files.walk "d" = .ok [one, other] ∧ one ≠ other ∧
        Path.relativeKey "d" one = Path.relativeKey "d" other ∧
        ¬ Path.IsArchive one ∧ ¬ Path.IsArchive other ∧
        ∃ after, Scan.scan files "d" true fresh =
          .error (.ofCause (.duplicateResource "\uFFFD" "d/\uFFFD" "d/\uFFFD")) after) ∧
    let files : FileTree := ⟨.directory [("d", .directory Node.twins)], []⟩
    files.find "d" = .ok (.directory Node.twins) ∧ (Node.directory Node.twins).IsTree ∧
      files.visit "d" = .ok ((Node.directory Node.twins).entriesAt "d") ∧
      files.walk "d" = .ok ["d/A.class", "d/B.class"] ∧
      ¬ Path.IsArchive "d/A.class" ∧ ¬ Path.IsArchive "d/B.class" ∧
      ∃ after, Scan.scan files "d" true fresh = .error (.ofCause (.duplicateClass "A")) after := by
  intro fresh
  have walks : fresh.registry.walker = some walk := rfl
  have freeKey (key : String) : fresh.registry.entries[key]? = none :=
    Std.ExtTreeMap.getElem?_empty
  have freeName (name : String) : fresh.registry.classes[name]? = none :=
    Std.ExtTreeMap.getElem?_empty
  have notInput : isStandardInput "d" = false := by decide
  constructor
  · intro files one other
    have found : files.find "d" = .ok (.directory Node.unspelled) := by rfl
    have walked : files.walk "d" = .ok [one, other] := walk_pair found notInput (by decide)
    obtain ⟨⟨oneKey, otherKey⟩, oneText, otherText⟩ := Path.unspelled_texts one other rfl rfl
    have oneExtension : Path.extension? one = none := by decide
    have otherExtension : Path.extension? other = none := by decide
    have first : Scan.scanFile files "\uFFFD" one true fresh =
        .ok () (fresh.enter "\uFFFD" (.file one)) :=
      Scan.scanFile_bare true fresh oneExtension (freeKey _)
    have second : Scan.scanFile files "\uFFFD" other true (fresh.enter "\uFFFD" (.file one)) =
        .error (.ofCause (.duplicateResource "\uFFFD" "d/\uFFFD" "d/\uFFFD"))
          (fresh.enter "\uFFFD" (.file one)) := by
      have taken : (fresh.enter "\uFFFD" (.file one)).registry.entries["\uFFFD"]? =
          some (.file one) := Std.ExtTreeMap.getElem?_insert_self
      rw [Scan.scanFile, otherExtension]
      change Scan.addResource _ _ _ = _
      rw [Scan.addResource_eq, taken]
      dsimp only
      rw [oneText, otherText]
    refine ⟨found, Node.unspelled_isTree, visit_pair found notInput, walked, by decide,
      oneKey.trans otherKey.symm, by simp [Path.IsArchive, oneExtension],
      by simp [Path.IsArchive, otherExtension], fresh.enter "\uFFFD" (.file one), ?_⟩
    rw [Scan.scan_of_walk true walks found walked, Scan.scanFiles, oneKey, Scan.bind_of_ok first,
      Scan.scanFiles, otherKey]
    exact Scan.bind_of_error second
  · intro files
    have found : files.find "d" = .ok (.directory Node.twins) := by rfl
    have walked : files.walk "d" = .ok ["d/A.class", "d/B.class"] :=
      walk_pair found notInput (by decide)
    have named := RawClass.letter_named.1
    have oneKey : Path.relativeKey "d" "d/A.class" = "A.class" :=
      Path.relativeKey_of_join (by decide) (by decide) (by decide)
    have otherKey : Path.relativeKey "d" "d/B.class" = "B.class" :=
      Path.relativeKey_of_join (by decide) (by decide) (by decide)
    have oneExtension : Path.extension? "d/A.class" = some "class" :=
      (Path.extension?_eq_some_iff _ _).mpr (by decide)
    have otherExtension : Path.extension? "d/B.class" = some "class" :=
      (Path.extension?_eq_some_iff _ _).mpr (by decide)
    have oneRead : files.read "d/A.class" = .ok (RawClass.letter 0x41).encode := by rfl
    have otherRead : files.read "d/B.class" = .ok (RawClass.letter 0x41).encode := by rfl
    obtain ⟨cls, _, goesBy, first⟩ := Scan.scanFile_classFile "A.class" true fresh oneRead
      oneExtension (RawClass.letter_resolvable 0x41) named (freeKey _) (freeName _)
    let between := (fresh.enter "A.class" (.file "d/A.class")).add
      ⟨cls, some (RawClass.letter 0x41).pool.pool⟩
    have free : between.registry.entries["B.class"]? = none := by
      rw [← freeKey "B.class"]
      exact Catalog.entries_enter_of_ne (by simp)
    have taken : between.registry.classes["A"]? = some fresh.objects.size := by
      rw [← goesBy]
      exact Std.ExtTreeMap.getElem?_insert_self
    have second := Scan.scanFile_classTaken true between otherRead otherExtension
      (RawClass.letter_resolvable 0x41) named free taken
    refine ⟨found, Node.twins_isTree, visit_pair found notInput, walked,
      by simp [Path.IsArchive, oneExtension], by simp [Path.IsArchive, otherExtension],
      between.enter "B.class" (.file "d/B.class"), ?_⟩
    rw [Scan.scan_of_walk true walks found walked, Scan.scanFiles, oneKey, Scan.bind_of_ok first,
      Scan.scanFiles, otherKey]
    exact Scan.bind_of_error second

/-- A class file, and a directory of another one and of a file that is none. -/
def FileTree.shelving (one other : RawClass) : FileTree :=
  ⟨.directory [("A.class", .file one.encode),
    ("lib", .directory [("B.class", .file other.encode), ("n", .file [])])], []⟩

section Shelving

variable (one other : RawClass)

/-- What scans of this tree read off its paths. -/
theorem FileTree.shelving_texts :
    (Path.relativeKey "lib" "lib/B.class" = "B.class" ∧ Path.relativeKey "lib" "lib/n" = "n") ∧
    (Path.extension? "A.class" = some "class" ∧
      Path.extension? "lib/B.class" = some "class" ∧ Path.extension? "lib/n" = none) := by
  refine ⟨⟨Path.relativeKey_of_join ?_ ?_ ?_, Path.relativeKey_of_join ?_ ?_ ?_⟩,
    (Path.extension?_eq_some_iff _ _).mpr ?_, (Path.extension?_eq_some_iff _ _).mpr ?_, ?_⟩ <;>
  decide

theorem FileTree.find_shelving : (shelving one other).find "lib" =
    .ok (.directory [("B.class", .file other.encode), ("n", .file [])]) := by
  rfl

theorem FileTree.walk_shelving :
    (shelving one other).walk "lib" = .ok ["lib/B.class", "lib/n"] :=
  walk_pair (find_shelving one other) (by decide) (by decide)

/-- A walk of the directory reaches the class file and the other one. -/
theorem FileTree.reaches_shelving :
    (shelving one other).Reaches (some walk) "lib" "B.class" ∧
      (shelving one other).Reaches (some walk) "lib" "n" := by
  have directory : (shelving one other).isDirectory "lib" = true := by
    rw [isDirectory, find_shelving]
  have visits (path : Path.Text) (among : path ∈ (["lib/B.class", "lib/n"] : List Path.Text)) :
      (shelving one other).Visits (some walk) "lib" (Path.relativeKey "lib" path) path :=
    .below directory rfl (walk_shelving one other) among
  obtain ⟨⟨key, otherKey⟩, -, extended, bare⟩ := shelving_texts
  have classFile := visits "lib/B.class" (by simp)
  have plain := visits "lib/n" (by simp)
  rw [key] at classFile
  rw [otherKey] at plain
  exact ⟨⟨_, _, classFile, .itself (by simp [Path.IsArchive, extended])⟩,
    ⟨_, _, plain, .itself (by simp [Path.IsArchive, bare])⟩⟩

end Shelving

namespace Scan

open FileTree (shelving)

variable {one other : RawClass} {name otherName : String} (own : Bool) (catalog : Catalog)

/-- The class file goes in where its key and its class are free. -/
theorem scan_shelving_file (resolves : one.Resolvable)
    (named : one.pool.className? one.thisClass = some name)
    (free : catalog.registry.entries["A.class"]? = none)
    (unnamed : catalog.registry.classes[name]? = none) :
    ∃ cls : ClassFile, cls.name = name ∧ cls.source = "A.class" ∧
      scan (shelving one other) "A.class" own catalog =
        .ok () ((catalog.enter "A.class" (.file "A.class")).add ⟨cls, some one.pool.pool⟩) := by
  have found : (shelving one other).find "A.class" = .ok (.file one.encode) := by rfl
  have read : (shelving one other).read "A.class" = .ok one.encode := by rfl
  have called : Path.fileName? "A.class" = some ("A.class" : Path.Text) := by decide
  obtain ⟨-, extended, -⟩ := FileTree.shelving_texts
  obtain ⟨cls, parsed, goesBy, ran⟩ :=
    scanFile_classFile "A.class" own catalog read extended resolves named free unnamed
  refine ⟨cls, goesBy, (ClassFile.parse_origin parsed).2, ?_⟩
  rw [scan_of_file own found called, Path.Text.shown_ofString]
  exact ran

/-- The directory goes in with its class file, and with the other file if it is one's own. -/
theorem scan_shelving_directory (resolves : other.Resolvable)
    (named : other.pool.className? other.thisClass = some otherName)
    (walks : catalog.registry.walker = some FileTree.walk)
    (free : catalog.registry.entries["B.class"]? = none)
    (otherFree : catalog.registry.entries["n"]? = none)
    (unnamed : catalog.registry.classes[otherName]? = none) :
    ∃ cls : ClassFile, cls.name = otherName ∧ cls.source = "B.class" ∧
      let after := (catalog.enter "B.class" (.file "lib/B.class")).add
        ⟨cls, some other.pool.pool⟩
      scan (shelving one other) "lib" own catalog =
        .ok () (if own then after.enter "n" (.file "lib/n") else after) := by
  have read : (shelving one other).read "lib/B.class" = .ok other.encode := by rfl
  obtain ⟨⟨key, otherKey⟩, -, extended, bare⟩ := FileTree.shelving_texts
  obtain ⟨cls, parsed, goesBy, first⟩ :=
    scanFile_classFile "B.class" own catalog read extended resolves named free unnamed
  refine ⟨cls, goesBy, (ClassFile.parse_origin parsed).2, ?_⟩
  rw [scan_of_walk own walks (FileTree.find_shelving one other) (FileTree.walk_shelving one other),
    scanFiles, key, bind_of_ok first, scanFiles, otherKey]
  exact bind_of_ok (scanFile_bare own _ bare
    ((Catalog.entries_enter_of_ne (by simp)).trans otherFree))

/-- Two classes in a fresh registry, the directory scanned as one's own or as a library. -/
theorem exists_scan_shelving (resolves : one.Resolvable)
    (named : one.pool.className? one.thisClass = some name) (otherResolves : other.Resolvable)
    (otherNamed : other.pool.className? other.thisClass = some otherName)
    (apart : name ≠ otherName) :
    ∃ (between after : Catalog) (object volume : ClassObject),
      scan (shelving one other) "A.class" true ⟨Registry.empty (some FileTree.walk), #[]⟩ =
        .ok () between ∧
      scan (shelving one other) "lib" own between = .ok () after ∧
      after.class? name = some object ∧ object.file.name = name ∧
      object.file.source = "A.class" ∧
      after.class? otherName = some volume ∧ volume.file.name = otherName ∧
      volume.file.source = "B.class" := by
  let fresh : Catalog := ⟨Registry.empty (some FileTree.walk), #[]⟩
  have freeKey (key : String) : fresh.registry.entries[key]? = none :=
    Std.ExtTreeMap.getElem?_empty
  obtain ⟨cls, goesBy, sourced, first⟩ :=
    scan_shelving_file true fresh resolves named (freeKey _) Std.ExtTreeMap.getElem?_empty
  let object : ClassObject := ⟨cls, some one.pool.pool⟩
  let between := (fresh.enter "A.class" (.file "A.class")).add object
  have free {key : String} (apart : "A.class" ≠ key) : between.registry.entries[key]? = none :=
    (Catalog.entries_enter_of_ne apart).trans (freeKey key)
  have classes : between.registry.classes = (∅ : ClassMap).insert name 0 :=
    congrArg (Std.ExtTreeMap.insert _ · _) goesBy
  have unnamed : between.registry.classes[otherName]? = none := by
    rw [classes, Std.ExtTreeMap.getElem?_insert, if_neg (by simpa using apart),
      Std.ExtTreeMap.getElem?_empty]
  obtain ⟨file, fileNamed, fileSourced, second⟩ := scan_shelving_directory own between otherResolves
    otherNamed rfl (free (by simp)) (free (by simp)) unnamed
  let volume : ClassObject := ⟨file, some other.pool.pool⟩
  let later := (between.enter "B.class" (.file "lib/B.class")).add volume
  let after := if own then later.enter "n" (.file "lib/n") else later
  have known : after.class? = later.class? := by
    dsimp only [after]
    split <;> rfl
  have laterClasses :
      later.registry.classes = ((∅ : ClassMap).insert name 0).insert otherName 1 := by
    rw [← classes]
    exact congrArg (Std.ExtTreeMap.insert _ · _) fileNamed
  refine ⟨between, after, object, volume, first, second, ?_, goesBy, sourced, ?_, fileNamed,
    fileSourced⟩
  · rw [known]
    apply (Catalog.class?_eq_some_iff _ _ _).mpr
    refine ⟨0, ?_, rfl⟩
    rw [laterClasses, Std.ExtTreeMap.getElem?_insert, if_neg (by simpa using apart.symm),
      Std.ExtTreeMap.getElem?_insert_self]
  · rw [known]
    apply (Catalog.class?_eq_some_iff _ _ _).mpr
    refine ⟨1, ?_, rfl⟩
    rw [laterClasses, Std.ExtTreeMap.getElem?_insert_self]

end Scan

/-- The classes "A" and "B". -/
def FileTree.shelf : FileTree := shelving (.letter 0x41) (.letter 0x42)

theorem Scan.exists_scan_shelf (own : Bool) :
    ∃ (between after : Catalog) (object volume : ClassObject),
      scan FileTree.shelf "A.class" true ⟨Registry.empty (some FileTree.walk), #[]⟩ =
        .ok () between ∧
      scan FileTree.shelf "lib" own between = .ok () after ∧
      after.class? "A" = some object ∧ object.file.name = "A" ∧
      object.file.source = "A.class" ∧
      after.class? "B" = some volume ∧ volume.file.name = "B" ∧ volume.file.source = "B.class" :=
  exists_scan_shelving own (RawClass.letter_resolvable 0x41) RawClass.letter_named.1
    (RawClass.letter_resolvable 0x42) RawClass.letter_named.2 (by decide)

end Classpath
