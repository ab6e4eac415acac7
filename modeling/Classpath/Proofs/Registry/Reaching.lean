import Classpath.Proofs.Registry.Packing

/-!
What a scan reaches, and what is new after it. Main statement: what is new are classes with the keys
that they stand behind, and for one's own inputs also the keys of everything else that is reached.
-/

set_option autoImplicit false

namespace Classpath

open Classpath.Path (joinAll)

/-! The files that a scan comes to, told without reference to what it does with them. -/

/-- A scan comes to a file under a key: to the input itself, or to each that the walker lists below
it. -/
inductive FileTree.Visits (files : FileTree) (walker : Option Walker) (input : Path.Text) :
    String → Path.Text → Prop
  | itself {name : Path.Text} (plain : files.isDirectory input = false)
      (named : Path.fileName? input = some name) : Visits files walker input name.shown input
  | below {walk : Walker} {paths : List Path.Text} {path : Path.Text}
      (directory : files.isDirectory input = true) (walks : walker = some walk)
      (walked : walk files input = .ok paths) (among : path ∈ paths) :
      Visits files walker input (Path.relativeKey input path) path

def Path.IsArchive (path : Path.Text) : Prop :=
  Path.extension? path = some "jar" ∨ Path.extension? path = some "zip"

/-- The names that there are in a file that a scan has come to: its own key, or those of the members
of an archive that are no directories. -/
inductive FileTree.Holds (files : FileTree) (key : String) (path : Path.Text) : String → Prop
  | itself (plain : ¬ Path.IsArchive path) : Holds files key path key
  | member {archive : Archive} {listed : List Archive.Listed} {member : Archive.Listed}
      (isArchive : Path.IsArchive path) (opened : Archive.openAt files path = .ok archive)
      (lists : archive.members = .ok listed) (among : member ∈ listed)
      (plain : member.isDirectory = false) : Holds files key path member.name

/-- The names that a scan of an input reaches. -/
def FileTree.Reaches (files : FileTree) (walker : Option Walker) (input : Path.Text)
    (name : String) : Prop :=
  ∃ key path, files.Visits walker input key path ∧ files.Holds key path name

/-- Every file below a directory that is walked is visited, unless the path is a lone dash. -/
theorem FileTree.visits_leaf {files : FileTree} {input : Path.Text}
    {children : List (Path.Text × Node)} {paths : List Path.Text}
    (found : files.find input = .ok (.directory children))
    (notInput : isStandardInput input = false) (walked : files.walk input = .ok paths) {leaf : Leaf}
    (among : leaf ∈ (Node.directory children).leaves) :
    files.Visits (some walk) input (Path.relativeKey input (joinAll input leaf.names))
      (joinAll input leaf.names) := by
  have directory : files.isDirectory input = true := by
    rw [isDirectory, found]
  apply Visits.below directory rfl walked
  by_cases opens : (Node.directory children).canBeWalked input = true
  · have visited : files.visit input = .ok ((Node.directory children).entriesAt input) := by
      simp [visit, notInput, found, opens]
    rw [walk_eq visited] at walked
    cases walked
    exact List.mem_map_of_mem ((Node.inOrder_perm _).mem_iff.mpr among)
  · simp [walk, visit, notInput, found, opens] at walked

namespace Addition

/-- What is added where `own` inputs are scanned and these names are reached. -/
structure Gathers (own : Bool) (reached : String → Prop) (additions : List Addition) : Prop where
  owned : ∀ added ∈ additions, ∀ object, added.object = some object → object.file.own = own
  sourced : ∀ added ∈ additions, ∀ object, added.object = some object →
    object.file.source = added.key
  /-- From a library nothing is added but classes. -/
  classes : own = false → ∀ added ∈ additions, ∃ object, added.object = some object
  within : ∀ added ∈ additions, reached added.key
  /-- Of one's own inputs everything is added. -/
  all : own = true → ∀ name, reached name → ∃ added ∈ additions, added.key = name

/-- A directory that adds anything has been walked. -/
theorem exists_walk {files : FileTree} {walker : Option Walker} {root : Path.Text} {own : Bool}
    {additions : List Addition} (adds : ofDirectory? files walker root own = some additions) :
    ∃ walk paths, walker = some walk ∧ walk files root = .ok paths ∧
      together (fun path => ofFile? files (Path.relativeKey root path) path own) paths =
        some additions := by
  unfold ofDirectory? at adds
  split at adds
  · cases adds
  · rename_i walk
    split at adds
    · cases adds
    · rename_i paths walked
      exact ⟨walk, paths, rfl, walked, adds⟩

namespace Gathers

theorem congr {own : Bool} {reached other : String → Prop} {additions : List Addition}
    (gathers : Gathers own reached additions) (same : ∀ name, reached name ↔ other name) :
    Gathers own other additions := by
  have equal : reached = other := funext fun name => propext (same name)
  rwa [← equal]

theorem ofClass {own : Bool} {key : String} {contents : Except Error Bytes} {added : Addition}
    (made : ofClass? own key contents = some added) : Gathers own (· = key) [added] := by
  unfold ofClass? at made
  split at made
  · cases made
  · split at made
    · cases made
    · rename_i file pool parsed
      cases made
      have origin := ClassFile.parse_origin parsed
      constructor
      · simp [origin.1]
      · simp [origin.2]
      · simp
      · simp
      · simp

/-- A key that no class stands behind is added for one's own inputs. -/
theorem ofOther (own : Bool) (key : String) (contents : Except Error Bytes) :
    Gathers own (· = key) (if own then [⟨key, contents, none⟩] else []) := by
  cases own with
  | true => constructor <;> simp
  | false => constructor <;> simp

theorem ofNamed {own : Bool} {file : String × Except Error Bytes} {additions : List Addition}
    (adds : ofNamed? own file = some additions) : Gathers own (· = file.1) additions := by
  unfold ofNamed? at adds
  split at adds
  · obtain ⟨added, made, rfl⟩ := Option.map_eq_some_iff.mp adds
    exact ofClass made
  · cases adds
    exact ofOther own file.1 file.2

theorem nothing (own : Bool) : Gathers own (fun _ => False) [] := by
  constructor <;> simp

theorem append {own : Bool} {first second : String → Prop} {front back : List Addition}
    (inFront : Gathers own first front) (behind : Gathers own second back) :
    Gathers own (fun name => first name ∨ second name) (front ++ back) := by
  constructor
  · intro added among
    exact (List.mem_append.mp among).elim (inFront.owned added) (behind.owned added)
  · intro added among
    exact (List.mem_append.mp among).elim (inFront.sourced added) (behind.sourced added)
  · intro library added among
    exact (List.mem_append.mp among).elim (inFront.classes library added)
      (behind.classes library added)
  · intro added among
    exact (List.mem_append.mp among).imp (inFront.within added) (behind.within added)
  · intro mine name reached
    cases reached with
    | inl early =>
        obtain ⟨added, among, keyed⟩ := inFront.all mine name early
        exact ⟨added, List.mem_append_left back among, keyed⟩
    | inr late =>
        obtain ⟨added, among, keyed⟩ := behind.all mine name late
        exact ⟨added, List.mem_append_right front among, keyed⟩

theorem together {ι : Type} {own : Bool} {each : ι → Option (List Addition)}
    {reached : ι → String → Prop} {items : List ι} {additions : List Addition}
    (alone : ∀ item ∈ items, ∀ part, each item = some part → Gathers own (reached item) part)
    (adds : Addition.together each items = some additions) :
    Gathers own (fun name => ∃ item ∈ items, reached item name) additions := by
  induction items generalizing additions with
  | nil =>
      cases adds
      exact (nothing own).congr (by simp)
  | cons item rest ih =>
      obtain ⟨front, back, starts, ends, rfl⟩ := both_eq_some adds
      have first := alone item List.mem_cons_self front starts
      have others := ih (fun other among => alone other (List.mem_cons_of_mem item among)) ends
      exact (first.append others).congr (by simp)

theorem ofMember {archive : Archive} {own : Bool} {member : Archive.Listed}
    {additions : List Addition} (adds : ofMember? archive own member = some additions) :
    Gathers own (fun name => member.isDirectory = false ∧ member.name = name) additions := by
  rw [ofMember?_eq] at adds
  by_cases directory : member.isDirectory = true
  · rw [if_pos directory] at adds
    cases adds
    exact (nothing own).congr (by simp [directory])
  · rw [if_neg directory] at adds
    exact (ofNamed adds).congr (by simp [directory, eq_comm])

theorem ofArchive {files : FileTree} {path : Path.Text} {own : Bool} {additions : List Addition}
    (isArchive : Path.IsArchive path) (key : String)
    (adds : ofArchive? files path own = some additions) :
    Gathers own (files.Holds key path) additions := by
  unfold ofArchive? at adds
  split at adds
  · cases adds
  · rename_i archive opened
    unfold ofMembers? at adds
    split at adds
    · cases adds
    · rename_i listed lists
      apply (together (fun member _ part => ofMember) adds).congr
      intro name
      constructor
      · intro ⟨member, among, plain, named⟩
        exact named ▸ .member isArchive opened lists among plain
      · intro holds
        cases holds with
        | itself plain => exact absurd isArchive plain
        | @member again others member _ openedAgain listsAgain among plain =>
            rw [opened] at openedAgain
            cases openedAgain
            rw [lists] at listsAgain
            cases listsAgain
            exact ⟨member, among, plain, rfl⟩

theorem holds_itself {files : FileTree} {key : String} {path : Path.Text}
    (plain : ¬ Path.IsArchive path) (name : String) :
    name = key ↔ files.Holds key path name := by
  constructor
  · intro same
    exact same ▸ .itself plain
  · intro holds
    cases holds with
    | itself => rfl
    | member isArchive => exact absurd isArchive plain

theorem ofFile {files : FileTree} {key : String} {path : Path.Text} {own : Bool}
    {additions : List Addition} (adds : ofFile? files key path own = some additions) :
    Gathers own (files.Holds key path) additions := by
  unfold ofFile? at adds
  split at adds
  · rename_i extended
    obtain ⟨added, made, rfl⟩ := Option.map_eq_some_iff.mp adds
    exact (ofClass made).congr (holds_itself (by simp [Path.IsArchive, extended]))
  · rename_i extended
    exact ofArchive (Or.inl extended) key adds
  · rename_i extended
    exact ofArchive (Or.inr extended) key adds
  · rename_i notClass notJar notZip
    cases adds
    exact (ofOther own key _).congr (holds_itself fun isArchive => isArchive.elim notJar notZip)

theorem ofInput {files : FileTree} {walker : Option Walker} {input : Path.Text} {own : Bool}
    {additions : List Addition} (adds : ofInput? files walker input own = some additions) :
    Gathers own (files.Reaches walker input) additions := by
  unfold ofInput? at adds
  by_cases directory : files.isDirectory input = true
  · rw [if_pos directory] at adds
    obtain ⟨walk, paths, walks, walked, adds⟩ := exists_walk adds
    apply (together (fun path _ part => ofFile) adds).congr
    intro name
    constructor
    · intro ⟨path, among, holds⟩
      exact ⟨_, path, .below directory walks walked among, holds⟩
    · intro ⟨key, path, visits, holds⟩
      cases visits with
      | itself plain => rw [directory] at plain; cases plain
      | below _ walksAgain walkedAgain among =>
          rw [walks] at walksAgain
          cases walksAgain
          rw [walked] at walkedAgain
          cases walkedAgain
          exact ⟨path, among, holds⟩
  · rw [if_neg directory] at adds
    split at adds
    · rename_i fileName named
      apply (ofFile adds).congr
      intro name
      constructor
      · intro holds
        exact ⟨_, input, .itself (by simpa using directory) named, holds⟩
      · intro ⟨other, path, visits, holds⟩
        cases visits with
        | itself _ namedAgain =>
            rw [named] at namedAgain
            cases namedAgain
            exact holds
        | below isDirectory => exact absurd isDirectory directory
    · cases adds

end Gathers

/-- What is added together is added for one of the items. -/
theorem mem_together {ι : Type} {each : ι → Option (List Addition)} {items : List ι}
    {additions : List Addition} (adds : together each items = some additions) (added : Addition) :
    added ∈ additions ↔ ∃ item ∈ items, ∃ part, each item = some part ∧ added ∈ part := by
  induction items generalizing additions with
  | nil =>
      cases adds
      simp
  | cons item rest ih =>
      obtain ⟨front, back, starts, ends, rfl⟩ := both_eq_some adds
      simp [ih ends, starts]

theorem exists_of_together {ι : Type} {each : ι → Option (List Addition)} {items : List ι}
    {additions : List Addition} (adds : together each items = some additions) {item : ι}
    (among : item ∈ items) : ∃ part, each item = some part := by
  induction items generalizing additions with
  | nil => cases among
  | cons first rest ih =>
      obtain ⟨front, back, starts, ends, rfl⟩ := both_eq_some adds
      cases List.mem_cons.mp among with
      | inl same => exact ⟨front, same ▸ starts⟩
      | inr behind => exact ih ends behind

end Addition

/-- What is seen once additions have been made, each of which was free to be made. -/
structure View.Gained (view : View) (additions : List Addition) (after : View) : Prop where
  free : ∀ added ∈ additions, view.isFree added = true
  contents : ∀ key, after.contents key = none ↔
    view.contents key = none ∧ ∀ added ∈ additions, added.key ≠ key
  classes : ∀ name object, after.classes name = some object ↔
    view.classes name = some object ∨
      ∃ added ∈ additions, added.object = some object ∧ object.file.name = name

namespace View

theorem put_contents (view : View) (added : Addition) (key : String) :
    (view.put added).contents key = none ↔ view.contents key = none ∧ added.key ≠ key := by
  by_cases same : key = added.key
  · simp [put, same]
  · simp [put, same, Ne.symm same]

theorem put_classes {view : View} {added : Addition} (free : view.isFree added = true)
    (name : String) (object : ClassObject) : (view.put added).classes name = some object ↔
      view.classes name = some object ∨
        (added.object = some object ∧ object.file.name = name) := by
  cases made : added.object with
  | none => simp [put, made]
  | some other =>
      simp only [isFree, made, Bool.and_eq_true, Option.all_some, Option.isNone_iff_eq_none] at free
      by_cases same : name = other.file.name
      · simp only [put, made, same, Function.update_self, free.2, Option.some.injEq, reduceCtorEq,
          false_or]
        constructor
        · intro one
          exact ⟨one, one ▸ rfl⟩
        · intro one
          exact one.1
      · simp only [put, made, Function.update_of_ne same, Option.some.injEq, iff_self_or]
        intro one
        exact absurd (one.1 ▸ one.2.symm) same

/-- By induction on the additions: those that are free behind the first were free before it. -/
theorem gained {additions : List Addition} {view after : View}
    (gains : gain (some view) (some additions) = some after) : view.Gained additions after := by
  change additions.foldl take (some view) = some after at gains
  induction additions generalizing view with
  | nil =>
      cases gains
      constructor
      · simp
      · simp
      · simp
  | cons added rest ih =>
      rw [List.foldl_cons, take, Option.bind_some] at gains
      by_cases free : view.isFree added = true
      · rw [if_pos free] at gains
        have later := ih gains
        constructor
        · intro other among
          cases List.mem_cons.mp among with
          | inl same => exact same ▸ free
          | inr behind =>
              have still := later.free other behind
              rw [isFree_put, Bool.and_eq_true] at still
              exact still.1
        · intro key
          rw [later.contents, put_contents, and_assoc]
          simp only [List.mem_cons, forall_eq_or_imp]
        · intro name object
          rw [later.classes, put_classes free, or_assoc]
          simp only [List.mem_cons, exists_eq_or_imp]
      · rw [if_neg free] at gains
        have nothing : rest.foldl take none = none := gain_none (some rest)
        rw [nothing] at gains
        cases gains

/-- Additions that were all made have different keys. -/
theorem nodup_keys {additions : List Addition} {view after : View}
    (gains : gain (some view) (some additions) = some after) :
    (additions.map Addition.key).Nodup := by
  change additions.foldl take (some view) = some after at gains
  induction additions generalizing view with
  | nil => exact List.nodup_nil
  | cons added rest ih =>
      rw [List.foldl_cons, take, Option.bind_some] at gains
      by_cases free : view.isFree added = true
      · rw [if_pos free] at gains
        refine List.nodup_cons.mpr ⟨?_, ih gains⟩
        intro again
        obtain ⟨other, among, same⟩ := List.mem_map.mp again
        have still := (gained gains).free other among
        rw [isFree_put, Bool.and_eq_true, Addition.isApart, Bool.and_eq_true] at still
        exact of_decide_eq_true still.2.1 same.symm
      · rw [if_neg free] at gains
        have nothing : rest.foldl take none = none := gain_none (some rest)
        rw [nothing] at gains
        cases gains

end View

namespace Catalog

/-- The keys that are registered now and were not. -/
def newKeys (before after : Catalog) : List String :=
  after.registry.resourceKeys.filter fun key => before.registry.entries[key]?.isNone

/-- The classes that are registered now by names that were not. -/
def newClasses (before after : Catalog) : List ClassObject :=
  (after.registry.classNames.filter fun name =>
    before.registry.classes[name]?.isNone).filterMap after.class?

variable {before after : Catalog} {files : FileTree}

theorem nodup_newKeys (before after : Catalog) : (newKeys before after).Nodup :=
  Std.ExtTreeMap.nodup_keys.filter _

theorem mem_newKeys_iff (key : String) : key ∈ newKeys before after ↔
    after.registry.entries[key]? ≠ none ∧ before.registry.entries[key]? = none := by
  simp only [newKeys, Registry.resourceKeys, List.mem_filter, Std.ExtTreeMap.mem_keys,
    Std.ExtTreeMap.mem_iff_isSome_getElem?, Option.isNone_iff_eq_none,
    ← Option.ne_none_iff_isSome]

theorem mem_newKeys (files : FileTree) (key : String) : key ∈ newKeys before after ↔
    (after.view files).contents key ≠ none ∧ (before.view files).contents key = none := by
  simp only [mem_newKeys_iff, view, ne_eq, Option.map_eq_none_iff]

theorem mem_newClasses (kept : before.WellKept) (object : ClassObject) :
    object ∈ newClasses before after ↔
      ∃ name, after.class? name = some object ∧ before.class? name = none := by
  simp only [newClasses, Registry.classNames, List.mem_filterMap, List.mem_filter,
    Std.ExtTreeMap.mem_keys, Std.ExtTreeMap.mem_iff_isSome_getElem?, Option.isNone_iff_eq_none,
    kept.class?_eq_none_iff]
  constructor
  · intro ⟨name, ⟨_, unnamed⟩, found⟩
    exact ⟨name, found, unnamed⟩
  · intro ⟨name, found, unnamed⟩
    obtain ⟨number, entered, _⟩ := (after.class?_eq_some_iff name object).mp found
    exact ⟨name, ⟨by rw [entered]; rfl, unnamed⟩, found⟩

/-- No two classes that are new have one source. -/
theorem WellKept.nodup_sources_newClasses (kept : after.WellKept) (before : Catalog) :
    ((newClasses before after).map (·.file.source)).Nodup := by
  have names : (after.registry.classNames.filter fun name =>
      before.registry.classes[name]?.isNone).Nodup := Std.ExtTreeMap.nodup_keys.filter _
  unfold List.Nodup newClasses
  rw [List.pairwise_map, List.pairwise_filterMap]
  apply List.Pairwise.imp _ names
  intro name other apart object found otherObject otherFound same
  obtain ⟨number, entered, there⟩ := (after.class?_eq_some_iff name object).mp found
  obtain ⟨otherNumber, otherEntered, otherThere⟩ :=
    (after.class?_eq_some_iff other otherObject).mp otherFound
  exact apart (kept.apart name other number otherNumber object otherObject entered otherEntered
    there otherThere same)

end Catalog

namespace Scan

variable {files : FileTree} {path : Path.Text} {own : Bool} {before after : Catalog}

/-- What a scan that succeeds has added is all that the files say. -/
theorem exists_gained (kept : before.WellKept) (ran : scan files path own before = .ok () after) :
    ∃ additions, Addition.ofInput? files before.registry.walker path own = some additions ∧
      (before.view files).Gained additions (after.view files) := by
  have contributed := contributes_scan files before.registry.walker path own before kept rfl
  rw [ran] at contributed
  cases adds : Addition.ofInput? files before.registry.walker path own with
  | none =>
      rw [adds] at contributed
      cases contributed
  | some additions =>
      rw [adds] at contributed
      exact ⟨additions, rfl, View.gained contributed.symm⟩

/-- The keys that are new are those of the additions, and so are the classes. -/
theorem mem_newKeys_of_gained {additions : List Addition}
    (gained : (before.view files).Gained additions (after.view files)) (key : String) :
    key ∈ Catalog.newKeys before after ↔ ∃ added ∈ additions, added.key = key := by
  rw [Catalog.mem_newKeys files, Ne, gained.contents]
  constructor
  · intro ⟨there, free⟩
    by_contra none
    exact there ⟨free, fun added among keyed => none ⟨added, among, keyed⟩⟩
  · intro ⟨added, among, keyed⟩
    have free := ((before.isFree_iff files added).mp (gained.free added among)).1
    rw [keyed] at free
    refine ⟨fun both => both.2 added among keyed, ?_⟩
    simp [Catalog.view, free]

theorem mem_newClasses_of_gained {additions : List Addition} (kept : before.WellKept)
    (gained : (before.view files).Gained additions (after.view files)) (object : ClassObject) :
    object ∈ Catalog.newClasses before after ↔
      ∃ added ∈ additions, added.object = some object := by
  have classes (name : String) : after.class? name = some object ↔
      before.class? name = some object ∨
        ∃ added ∈ additions, added.object = some object ∧ object.file.name = name :=
    gained.classes name object
  rw [Catalog.mem_newClasses kept]
  constructor
  · intro ⟨name, found, unnamed⟩
    cases (classes name).mp found with
    | inl old =>
        rw [unnamed] at old
        cases old
    | inr made =>
        obtain ⟨added, among, of, _⟩ := made
        exact ⟨added, among, of⟩
  · intro ⟨added, among, of⟩
    have free := ((before.isFree_iff files added).mp (gained.free added among)).2 object of
    exact ⟨object.file.name, (classes _).mpr (Or.inr ⟨added, among, of, rfl⟩), free⟩

/-- Classes that a scan adds are the scanner's own or not, as told, and have different sources,
which are keys that it adds. Of a library the keys of classes are all that is added; of one's own
inputs every name that is reached is, and nothing else. -/
theorem newClasses_newKeys (kept : before.WellKept)
    (ran : scan files path own before = .ok () after) :
    (∀ object ∈ Catalog.newClasses before after, object.file.own = own) ∧
      ((Catalog.newClasses before after).map (·.file.source)).Nodup ∧
      (∀ object ∈ Catalog.newClasses before after,
        object.file.source ∈ Catalog.newKeys before after) ∧
      (own = false → (Catalog.newKeys before after).Perm
        ((Catalog.newClasses before after).map (·.file.source))) ∧
      (∀ key ∈ Catalog.newKeys before after, files.Reaches before.registry.walker path key) ∧
      (own = true → ∀ key, files.Reaches before.registry.walker path key →
        key ∈ Catalog.newKeys before after) := by
  obtain ⟨additions, adds, gained⟩ := exists_gained kept ran
  have gathers := Addition.Gathers.ofInput adds
  have keys := mem_newKeys_of_gained gained
  have classes := mem_newClasses_of_gained kept gained
  have afterKept : after.WellKept :=
    Catalog.Grows.wellKept (grows_of_ok (growing_scan files path own before kept) ran) kept
  have apart := afterKept.nodup_sources_newClasses before
  have registered : ∀ object ∈ Catalog.newClasses before after,
      object.file.source ∈ Catalog.newKeys before after := by
    intro object among
    obtain ⟨added, inside, of⟩ := (classes object).mp among
    exact (keys _).mpr ⟨added, inside, (gathers.sourced added inside object of).symm⟩
  refine ⟨?_, apart, registered, ?_, ?_, ?_⟩
  · intro object among
    obtain ⟨added, inside, of⟩ := (classes object).mp among
    exact gathers.owned added inside object of
  · intro library
    apply (List.perm_ext_iff_of_nodup (Catalog.nodup_newKeys before after) apart).mpr
    intro key
    rw [List.mem_map]
    constructor
    · intro among
      obtain ⟨added, inside, keyed⟩ := (keys key).mp among
      obtain ⟨object, of⟩ := gathers.classes library added inside
      exact ⟨object, (classes object).mpr ⟨added, inside, of⟩,
        (gathers.sourced added inside object of).trans keyed⟩
    · intro ⟨object, among, sourced⟩
      exact sourced ▸ registered object among
  · intro key among
    obtain ⟨added, inside, keyed⟩ := (keys key).mp among
    exact keyed ▸ gathers.within added inside
  · intro mine key reached
    exact (keys key).mpr (gathers.all mine key reached)

/-- A scan of a directory that succeeds visits every file below it. -/
theorem visits_leaves (kept : before.WellKept) (ran : scan files path own before = .ok () after)
    (walks : before.registry.walker = some FileTree.walk)
    {children : List (Path.Text × Node)} (found : files.find path = .ok (.directory children))
    (notInput : FileTree.isStandardInput path = false) {leaf : Leaf}
    (among : leaf ∈ (Node.directory children).leaves) :
    files.Visits before.registry.walker path (Path.relativeKey path (joinAll path leaf.names))
      (joinAll path leaf.names) := by
  obtain ⟨additions, adds, _⟩ := exists_gained kept ran
  have directory : files.isDirectory path = true := by
    rw [FileTree.isDirectory, found]
  rw [Addition.ofInput?, if_pos directory] at adds
  obtain ⟨walk, paths, walksAgain, walked, _⟩ := Addition.exists_walk adds
  rw [walks] at walksAgain ⊢
  cases walksAgain
  exact FileTree.visits_leaf found notInput walked among

end Scan

end Classpath
