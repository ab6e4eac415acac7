import Mathlib.Data.List.Nodup
import Classpath.Proofs.Command.Runs
import Classpath.Proofs.Registry.Reaching
import Classpath.Proofs.Text.ByteOrder

/-!
What the program lists. The classes and the keys of a registry are listed each once, in the order of
the bytes of their names, and neither the order of the inputs nor that in which a map gives its
entries shows in the list.

Main statement: `listings_in_byte_order`.
-/

set_option autoImplicit false

namespace Classpath

/-- Items in the order of the bytes of their keys. -/
def inByteOrder {α : Type} (key : α → String) (items : List α) : List α :=
  items.mergeSort fun one other => Text.utf8Bytes (key one) ≤ Text.utf8Bytes (key other)

section Order

variable {α : Type} {key : α → String} {rows order : List α}

/-- Of lists of the same rows, with keys that ascend, there is only one. -/
theorem eq_of_ascending (ascending : rows.Pairwise fun one other => key one < key other)
    (orderAscending : order.Pairwise fun one other => key one < key other)
    (same : ∀ row, row ∈ order ↔ row ∈ rows) : order = rows := by
  have apart {list : List α} (ascends : list.Pairwise fun one other => key one < key other) :
      list.Nodup := by
    apply ascends.imp
    intro one other less same
    rw [same] at less
    exact lt_irrefl _ less
  have rearranged : order.Perm rows :=
    (List.perm_ext_iff_of_nodup (apart orderAscending) (apart ascending)).mpr same
  apply rearranged.eq_of_pairwise _ orderAscending ascending
  intro one other _ _ less greater
  exact absurd greater (lt_asymm less)

/-- Whatever order they are given in, rows with keys that ascend are sorted back. -/
theorem inByteOrder_eq_of_perm (ascending : rows.Pairwise fun one other => key one < key other)
    (rearranged : order.Perm rows) : inByteOrder key order = rows := by
  have byText : inByteOrder key order = order.mergeSort fun one other => key one ≤ key other := by
    simp only [inByteOrder, Text.utf8Bytes_le_iff]
  have distinct : (order.map key).Nodup := by
    apply (rearranged.map key).nodup_iff.mpr
    exact List.pairwise_map.mpr (ascending.imp ne_of_lt)
  rw [byText]
  apply eq_of_ascending ascending (Text.pairwise_lt_mergeSort distinct)
  intro row
  exact ((List.mergeSort_perm order _).trans rearranged).mem_iff

end Order

theorem keys_pairwise {α : Type} (map : Std.ExtTreeMap String α) : map.keys.Pairwise (· < ·) :=
  Std.ExtTreeMap.ordered_keys.imp compare_lt_iff_lt.mp

namespace Catalog

variable {files : FileTree} {first second catalog : Catalog}

/-- The registered classes that are listed: all of them, or those of one's own inputs. -/
def listed (catalog : Catalog) (own : Bool) : List ClassFile :=
  catalog.oldClasses.filter fun file => !own || file.own

theorem mem_listed (own : Bool) (file : ClassFile) : file ∈ catalog.listed own ↔
    (∃ name object, catalog.class? name = some object ∧ object.file = file) ∧
      (own = true → file.own = true) := by
  rw [listed, List.mem_filter, mem_oldClasses]
  cases own <;> simp

/-- A class goes by the name in its own header, so that the names ascend as the keys do. -/
theorem WellKept.listed_pairwise (kept : catalog.WellKept) (own : Bool) :
    (catalog.listed own).Pairwise fun one other => one.name < other.name := by
  have named {name : String} {number : ClassNumber} {object : ClassObject}
      (among : (name, number) ∈ catalog.registry.classes.toList)
      (there : catalog.objects[number]? = some object) : object.file.name = name :=
    kept.class?_name ((class?_eq_some_iff catalog name object).mpr
      ⟨number, Std.ExtTreeMap.mem_toList_iff_getElem?_eq_some.mp among, there⟩)
  apply List.Pairwise.filter
  unfold oldClasses Registry.objectsOf
  rw [List.pairwise_map, List.pairwise_filterMap]
  apply List.Pairwise.imp_of_mem _ Std.ExtTreeMap.ordered_keys_toList
  intro one other oneAmong otherAmong less object there otherObject otherThere
  rw [named oneAmong there, named otherAmong otherThere]
  exact compare_lt_iff_lt.mp less

theorem listed_eq_of_view (firstKept : first.WellKept) (secondKept : second.WellKept)
    (same : first.view files = second.view files) (own : Bool) :
    first.listed own = second.listed own := by
  apply eq_of_ascending (secondKept.listed_pairwise own) (firstKept.listed_pairwise own)
  intro file
  simp only [mem_listed, class?_eq_of_view same]

/-- The classes of a map in any order, sorted by the names in their own headers. -/
theorem WellKept.inByteOrder_classes (kept : catalog.WellKept) (own : Bool)
    {order : List (String × ClassNumber)}
    (rearranged : order.Perm catalog.registry.classes.toList) :
    inByteOrder ClassFile.name
      ((order.filterMap fun (_, number) => catalog.objects[number]?.map ClassObject.file).filter
        fun file => !own || file.own) = catalog.listed own := by
  apply inByteOrder_eq_of_perm (kept.listed_pairwise own)
  apply List.Perm.filter
  have whole : catalog.oldClasses = catalog.registry.classes.toList.filterMap
      fun (_, number) => catalog.objects[number]?.map ClassObject.file := by
    rw [oldClasses, Registry.objectsOf, List.map_filterMap]
  rw [whole]
  exact rearranged.filterMap _

/-- The keys of a map in any order, sorted. -/
theorem inByteOrder_keys (catalog : Catalog) {order : List (String × Entry)}
    (rearranged : order.Perm catalog.registry.entries.toList) :
    inByteOrder id (order.map Prod.fst) = catalog.registry.resourceKeys := by
  apply inByteOrder_eq_of_perm (keys_pairwise catalog.registry.entries)
  rw [← Std.ExtTreeMap.map_fst_toList_eq_keys]
  exact rearranged.map Prod.fst

end Catalog

namespace Command

variable {files : FileTree} {catalog : Catalog} {invocation other : Invocation}
  {libraries logFilter otherLibraries otherFilter : Option String}

/-- The libraries of the command line and those of the environment. -/
def libraryInputs (invocation : Invocation) (libraries : Option String) : List Path.Text :=
  invocation.libraries.map .ofString ++ (libraries.map Settings.splitPaths).getD []

def inputsOf (invocation : Invocation) (libraries : Option String) : List (Path.Text × Bool) :=
  (invocation.paths.map Path.Text.ofString).map (·, true) ++
    (libraryInputs invocation libraries).map (·, false)

theorem mem_inputsOf (path : Path.Text) : (path, true) ∈ inputsOf invocation libraries ↔
    ∃ input ∈ invocation.paths, Path.Text.ofString input = path := by
  simp [inputsOf]

/-- How directories are walked, or nothing where they are not. -/
def walkerOf (invocation : Invocation) : Option Walker :=
  if !invocation.noWalk then some FileTree.walk else none

theorem Settings.load_eq_ok_iff {settings : Settings} : settings.load files = .ok catalog ↔
    scanAll files settings.inputs (fresh settings.walker?) = .ok () catalog := by
  refine ⟨fun ran => ?_, load_of_scanAll⟩
  unfold load at ran
  split at ran
  · rename_i after scanned
    cases ran
    exact scanned
  · cases ran

theorem loaded_eq_ok_iff : loaded files invocation libraries logFilter = .ok catalog ↔
    invocation.paths ≠ [] ∧ Settings.scanAll files (inputsOf invocation libraries)
      (Settings.fresh (walkerOf invocation)) = .ok () catalog := by
  unfold loaded Settings.resolve
  by_cases empty : invocation.paths = []
  · simp [empty, bind, Except.bind]
  · rw [if_neg empty, and_iff_right empty]
    exact Settings.load_eq_ok_iff

theorem wellKept_loaded (ran : loaded files invocation libraries logFilter = .ok catalog) :
    catalog.WellKept :=
  Settings.wellKept_scanAll _ (Settings.wellKept_fresh _) (loaded_eq_ok_iff.mp ran).2

/-- Inputs in another order load as well, and show the same. -/
theorem loaded_perm (ran : loaded files invocation libraries logFilter = .ok catalog)
    (walks : other.noWalk = invocation.noWalk) (paths : other.paths.Perm invocation.paths)
    (libraryPaths : (libraryInputs other otherLibraries).Perm
      (libraryInputs invocation libraries)) :
    ∃ otherCatalog, loaded files other otherLibraries otherFilter = .ok otherCatalog ∧
      otherCatalog.view files = catalog.view files := by
  obtain ⟨given, scanned⟩ := loaded_eq_ok_iff.mp ran
  have rearranged : (inputsOf other otherLibraries).Perm (inputsOf invocation libraries) :=
    ((paths.map _).map _).append (libraryPaths.map _)
  have seen := Settings.seen_scanAll_perm files (walkerOf invocation) rearranged
  rw [scanned] at seen
  have otherGiven : other.paths ≠ [] := by
    intro empty
    rw [empty] at paths
    exact given paths.nil_eq.symm
  cases otherScanned : Settings.scanAll files (inputsOf other otherLibraries)
      (Settings.fresh (walkerOf invocation)) with
  | error error after =>
      rw [otherScanned] at seen
      cases seen
  | ok value otherCatalog =>
      rw [otherScanned] at seen
      refine ⟨otherCatalog, loaded_eq_ok_iff.mpr ⟨otherGiven, ?_⟩, Option.some.inj seen⟩
      rw [walkerOf, walks]
      exact otherScanned

/-- What a loaded registry shows are the additions of its inputs, no two with the same key. -/
theorem exists_additions (ran : loaded files invocation libraries logFilter = .ok catalog) :
    ∃ additions, Addition.together
        (fun input => Addition.ofInput? files (walkerOf invocation) input.1 input.2)
        (inputsOf invocation libraries) = some additions ∧
      (additions.map Addition.key).Nodup ∧
      ∀ name object, catalog.class? name = some object ↔
        ∃ added ∈ additions, added.object = some object ∧ object.file.name = name := by
  obtain ⟨_, scanned⟩ := loaded_eq_ok_iff.mp ran
  have contributes : Scan.Contributes files (walkerOf invocation) _ _ :=
    Settings.contributes_scanAll (walkerOf invocation) (inputsOf invocation libraries)
  have contributed := contributes (Settings.fresh (walkerOf invocation))
    (Settings.wellKept_fresh _) rfl
  rw [scanned] at contributed
  cases adds : Addition.together
      (fun input => Addition.ofInput? files (walkerOf invocation) input.1 input.2)
      (inputsOf invocation libraries) with
  | none =>
      rw [adds] at contributed
      cases contributed
  | some additions =>
      rw [adds] at contributed
      refine ⟨additions, rfl, View.nodup_keys contributed.symm, ?_⟩
      intro name object
      apply ((View.gained contributed.symm).classes name object).trans
      apply or_iff_right
      intro old
      have nothing : (Settings.fresh (walkerOf invocation)).class? name = none :=
        ((Settings.wellKept_fresh _).class?_eq_none_iff name).mpr Std.ExtTreeMap.getElem?_empty
      cases nothing.symm.trans old

/-- A class counts as one's own exactly if one's own inputs reach its source. -/
theorem own_iff_reached (ran : loaded files invocation libraries logFilter = .ok catalog)
    {name : String} {object : ClassObject} (found : catalog.class? name = some object) :
    object.file.own = true ↔
      ∃ input ∈ invocation.paths,
        files.Reaches (walkerOf invocation) input object.file.source := by
  obtain ⟨additions, adds, keys, classes⟩ := exists_additions ran
  obtain ⟨added, among, made, _⟩ := (classes name object).mp found
  obtain ⟨⟨path, own⟩, input, part, partAdds, inPart⟩ :=
    (Addition.mem_together adds added).mp among
  have gathers := Addition.Gathers.ofInput partAdds
  have sourced := gathers.sourced added inPart object made
  constructor
  · intro mine
    have given : own = true := (gathers.owned added inPart object made).symm.trans mine
    subst given
    obtain ⟨given, among, rfl⟩ := (mem_inputsOf path).mp input
    exact ⟨given, among, sourced ▸ gathers.within added inPart⟩
  · intro ⟨again, given, reaches⟩
    -- Whatever the input adds under this key can only be the class itself.
    have againInput : ((again : Path.Text), true) ∈ inputsOf invocation libraries :=
      (mem_inputsOf again).mpr ⟨again, given, rfl⟩
    obtain ⟨againPart, againAdds⟩ := Addition.exists_of_together adds againInput
    have againGathers := Addition.Gathers.ofInput againAdds
    obtain ⟨other, inAgain, keyed⟩ := againGathers.all rfl _ reaches
    have otherAmong : other ∈ additions :=
      (Addition.mem_together adds other).mpr ⟨_, againInput, againPart, againAdds, inAgain⟩
    have same : other = added :=
      List.inj_on_of_nodup_map keys otherAmong among (keyed.trans sourced)
    exact againGathers.owned other inAgain object (same ▸ made)

theorem perform_classes (files : FileTree) (catalog : Catalog) (own : Bool) :
    perform files catalog (.classes own) =
      .ok (printed (.array ((catalog.listed own).map classJson))) := by
  rw [perform, Catalog.listed, Catalog.oldClasses, List.filter_map, List.map_map]
  rfl

theorem perform_resources (files : FileTree) (catalog : Catalog) :
    perform files catalog .resources =
      .ok (printed (.array (catalog.registry.resourceKeys.map .string))) := rfl

/-- What there is to print of the registered classes: each that is listed once, and the same
whatever order a map gives them in. -/
structure ListsClasses (catalog : Catalog) (own : Bool) (rows : List ClassFile) : Prop where
  ascending : rows.Pairwise fun one other => Text.utf8Bytes one.name < Text.utf8Bytes other.name
  registered : ∀ row ∈ rows, ∃ object, catalog.class? row.name = some object ∧ object.file = row
  whole : ∀ name ∈ catalog.registry.classes, ∃ object, catalog.class? name = some object ∧
    object.file.name = name ∧ (object.file ∈ rows ↔ (own = true → object.file.own = true))
  sorted : ∀ order : List (String × ClassNumber), order.Perm catalog.registry.classes.toList →
    inByteOrder ClassFile.name
      ((order.filterMap fun (_, number) => catalog.objects[number]?.map ClassObject.file).filter
        fun file => !own || file.own) = rows

/-- What there is to print of the registered keys. -/
structure ListsKeys (catalog : Catalog) (keys : List String) : Prop where
  ascending : keys.Pairwise fun one other => Text.utf8Bytes one < Text.utf8Bytes other
  whole : ∀ key, key ∈ keys ↔ key ∈ catalog.registry.entries
  sorted : ∀ order : List (String × Entry), order.Perm catalog.registry.entries.toList →
    inByteOrder id (order.map Prod.fst) = keys

theorem listsClasses_listed (kept : catalog.WellKept) (own : Bool) :
    ListsClasses catalog own (catalog.listed own) := by
  constructor
  · simpa only [Text.utf8Bytes_lt_iff] using kept.listed_pairwise own
  · intro row among
    obtain ⟨⟨name, object, found, rfl⟩, _⟩ := (Catalog.mem_listed own row).mp among
    exact ⟨object, kept.class?_name found ▸ found, rfl⟩
  · intro name entered
    obtain ⟨number, numbered⟩ := Option.isSome_iff_exists.mp
      (Std.ExtTreeMap.mem_iff_isSome_getElem?.mp entered)
    obtain ⟨object, there, named⟩ := kept.named name number numbered
    have found : catalog.class? name = some object :=
      (Catalog.class?_eq_some_iff catalog name object).mpr ⟨number, numbered, there⟩
    refine ⟨object, found, kept.class?_name found, (Catalog.mem_listed own object.file).trans ?_⟩
    exact and_iff_right ⟨name, object, found, rfl⟩
  · intro order rearranged
    exact kept.inByteOrder_classes own rearranged

theorem listsKeys_resourceKeys (catalog : Catalog) :
    ListsKeys catalog catalog.registry.resourceKeys := by
  constructor
  · apply (keys_pairwise catalog.registry.entries).imp
    exact (Text.utf8Bytes_lt_iff _ _).mpr
  · intro key
    exact Std.ExtTreeMap.mem_keys
  · intro order rearranged
    exact catalog.inByteOrder_keys rearranged

/-- A subcommand that lists classes or keys. -/
inductive Subcommand.Lists : Subcommand → Prop
  | classes (own : Bool) : Lists (.classes own)
  | resources : Lists .resources

/-- What is listed shows no more than the view. -/
theorem perform_eq_of_view {first second : Catalog} {subcommand : Subcommand}
    (lists : subcommand.Lists) (firstKept : first.WellKept) (secondKept : second.WellKept)
    (same : first.view files = second.view files) :
    perform files first subcommand = perform files second subcommand := by
  cases lists with
  | classes own =>
      rw [perform_classes, perform_classes,
        Catalog.listed_eq_of_view firstKept secondKept same own]
  | resources =>
      rw [perform_resources, perform_resources, Catalog.resourceKeys_eq_of_view same]

theorem exists_performed (files : FileTree) (catalog : Catalog) {subcommand : Subcommand}
    (lists : subcommand.Lists) : ∃ output, perform files catalog subcommand = .ok output := by
  cases lists with
  | classes own => exact ⟨_, perform_classes files catalog own⟩
  | resources => exact ⟨_, perform_resources files catalog⟩

theorem summarise_classJson (rows : List ClassFile) :
    List.Forall₂ Json.Summarises rows (rows.map classJson) := by
  induction rows with
  | nil => exact .nil
  | cons row rest ih => exact .cons (Json.summarises_classJson row) ih

/-- Where all inputs load, `classes` shows a summary of each registered class, or of each that one's
own inputs reach, and `resources` each registered key, both strictly ascending by their bytes and
whatever order a map has them in. One's own inputs in another order, and the libraries of the
command line and the environment in another, print the same. -/
theorem listings_in_byte_order (files : FileTree) (line : List String) (invocation : Invocation)
    (libraries logFilter : Option String) (catalog : Catalog)
    (parsed : parse line = .ok invocation)
    (ran : loaded files invocation libraries logFilter = .ok catalog) :
    (∀ own, invocation.subcommand = .classes own →
      ∃ (rows : List ClassFile) (summaries : List Json),
        (run files line libraries logFilter).Shows (.array summaries) ∧
        List.Forall₂ Json.Summarises rows summaries ∧ ListsClasses catalog own rows) ∧
    (∀ name object, catalog.class? name = some object → (object.file.own = true ↔
      ∃ input ∈ invocation.paths,
        files.Reaches (walkerOf invocation) input object.file.source)) ∧
    (invocation.subcommand = .resources → ∃ keys : List String,
      (run files line libraries logFilter).Shows (.array (keys.map .string)) ∧
      ListsKeys catalog keys) ∧
    ∀ (otherLine : List String) (other : Invocation) (otherLibraries otherFilter : Option String),
      invocation.subcommand.Lists → parse otherLine = .ok other →
      other.subcommand = invocation.subcommand → other.noWalk = invocation.noWalk →
      other.paths.Perm invocation.paths →
      (libraryInputs other otherLibraries).Perm (libraryInputs invocation libraries) →
      ∃ output, (run files line libraries logFilter).Prints output ∧
        (run files otherLine otherLibraries otherFilter).Prints output := by
  have kept := wellKept_loaded ran
  refine ⟨?_, fun name object => own_iff_reached ran, ?_, ?_⟩
  · intro own asked
    refine ⟨catalog.listed own, _, Outcome.shows_of_prints (prints_of_execute parsed ?_),
      summarise_classJson _, listsClasses_listed kept own⟩
    rw [execute_of_loaded ran, asked, perform_classes]
  · intro asked
    refine ⟨catalog.registry.resourceKeys,
      Outcome.shows_of_prints (prints_of_execute parsed ?_), listsKeys_resourceKeys catalog⟩
    rw [execute_of_loaded ran, asked, perform_resources]
  · intro otherLine other otherLibraries otherFilter lists otherParsed asked walks paths
      libraryPaths
    obtain ⟨otherCatalog, otherRan, same⟩ := loaded_perm ran walks paths libraryPaths
    obtain ⟨output, performed⟩ := exists_performed files catalog lists
    refine ⟨output, prints_of_execute parsed ((execute_of_loaded ran).trans performed),
      prints_of_execute otherParsed ?_⟩
    rw [execute_of_loaded otherRan, asked,
      perform_eq_of_view lists (wellKept_loaded otherRan) kept same]
    exact performed

/-- Inputs of one's own, and nothing else. -/
def pathsOnly (paths : List String) : Options := { Options.none with paths, libraries := [] }

theorem parse_pathsOnly (paths : List String) (filled : ∀ path ∈ paths, path ≠ "") :
    parse (paths.map (Reading.attached "path") ++ ["classes"]) =
      .ok ((pathsOnly paths).invoke (.classes false)) := by
  have given := optionWords_attached paths [] filled (by simp)
  rw [List.map_nil, List.append_nil] at given
  exact parse_of_optionWords given (by decide) (by decide) [] (by simp) (by decide)

/-- A class file and a directory with another one, in both orders: either way both are shown. -/
theorem listings_in_byte_order_specimen :
    let line := ["--path=A.class", "--path=lib", "classes"]
    let otherLine := ["--path=lib", "--path=A.class", "classes"]
    ∃ (rows : List ClassFile) (summaries : List Json) (output : Bytes),
      "A" ∈ rows.map ClassFile.name ∧ "B" ∈ rows.map ClassFile.name ∧
      List.Forall₂ Json.Summarises rows summaries ∧
      (run FileTree.shelf line none none).Shows (.array summaries) ∧
      (run FileTree.shelf line none none).Prints output ∧
      (run FileTree.shelf otherLine none none).Prints output := by
  intro line otherLine
  obtain ⟨_, after, _, _, first, second, found, _, _, volumeFound, _⟩ :=
    Scan.exists_scan_shelf true
  have all : Settings.scanAll FileTree.shelf [("A.class", true), ("lib", true)]
      (Settings.fresh (some FileTree.walk)) = .ok () after :=
    (Scan.bind_of_ok first).trans (Scan.bind_of_ok second)
  have parsed : parse line = .ok ((pathsOnly ["A.class", "lib"]).invoke (.classes false)) :=
    parse_pathsOnly ["A.class", "lib"] (by decide)
  have otherParsed :
      parse otherLine = .ok ((pathsOnly ["lib", "A.class"]).invoke (.classes false)) :=
    parse_pathsOnly ["lib", "A.class"] (by decide)
  obtain ⟨listed, _, _, permuted⟩ := listings_in_byte_order FileTree.shelf line _ none none after
    parsed (loaded_eq_ok_iff.mpr ⟨by decide, all⟩)
  obtain ⟨rows, summaries, shows, summarise, lists⟩ := listed false rfl
  obtain ⟨output, prints, otherPrints⟩ := permuted otherLine _ none none (.classes false)
    otherParsed rfl rfl (List.Perm.swap _ _ _) (List.Perm.refl _)
  have among {name : String} {object : ClassObject} (known : after.class? name = some object) :
      name ∈ rows.map ClassFile.name := by
    obtain ⟨number, entered, _⟩ := (Catalog.class?_eq_some_iff _ _ _).mp known
    obtain ⟨listedObject, _, goesBy, shown⟩ := lists.whole name
      (Std.ExtTreeMap.mem_iff_isSome_getElem?.mpr (Option.isSome_of_eq_some entered))
    exact List.mem_map.mpr ⟨listedObject.file, shown.mpr (by simp), goesBy⟩
  exact ⟨rows, summaries, output, among found, among volumeFound, summarise, shows, prints,
    otherPrints⟩

end Command

end Classpath
