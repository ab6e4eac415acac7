import Classpath.Proofs.Registry.Additions

/-!
What each scan adds to what is seen of a catalog. Main statement: what a scan adds is told by the
files alone, and it succeeds exactly where all of that fits.
-/

set_option autoImplicit false

namespace Classpath

namespace Addition

/-- What a member of an archive adds. -/
def ofMember? (archive : Archive) (own : Bool) (member : Archive.Listed) :
    Option (List Addition) :=
  if ¬ member.isDirectory ∧ (Scan.isClassName member.name ∨ own) then
    if Scan.isClassName member.name then
      (ofClass? own member.name (archive.readMember member.index)).map ([·])
    else some [⟨member.name, archive.readMember member.index, none⟩]
  else some []

def ofMembers? (archive : Archive) (own : Bool) : Option (List Addition) :=
  match archive.members with
  | .error _ => none
  | .ok listed => together (ofMember? archive own) listed

def ofArchive? (files : FileTree) (path : Path.Text) (own : Bool) : Option (List Addition) :=
  match Archive.openAt files path with
  | .error _ => none
  | .ok archive => ofMembers? archive own

/-- What a file adds under a key, by the extension of its path. -/
def ofFile? (files : FileTree) (key : String) (path : Path.Text) (own : Bool) :
    Option (List Addition) :=
  match Path.extension? path with
  | some "class" => (ofClass? own key ((Entry.file path).read files #[])).map ([·])
  | some "jar" | some "zip" => ofArchive? files path own
  | _ => some (if own then [⟨key, (Entry.file path).read files #[], none⟩] else [])

def ofDirectory? (files : FileTree) (walker : Option Walker) (root : Path.Text) (own : Bool) :
    Option (List Addition) :=
  match walker with
  | none => none
  | some walk =>
      match walk files root with
      | .error _ => none
      | .ok paths =>
          together (fun path => ofFile? files (Path.relativeKey root path) path own) paths

/-- What an input adds, where directories are walked so, or are not. -/
def ofInput? (files : FileTree) (walker : Option Walker) (path : Path.Text) (own : Bool) :
    Option (List Addition) :=
  if files.isDirectory path then ofDirectory? files walker path own
  else
    match Path.fileName? path with
    | some name => ofFile? files name.shown path own
    | none => none

end Addition

namespace Catalog

def view (files : FileTree) (catalog : Catalog) : View where
  contents key := catalog.registry.entries[key]?.map (·.read files catalog.registry.archives)
  classes := catalog.class?

variable (files : FileTree)

theorem contents_insert (catalog : Catalog) (key : String) (entry : Entry) :
    (fun other => (catalog.registry.entries.insert key entry)[other]?.map
      (·.read files catalog.registry.archives)) =
      Function.update (catalog.view files).contents key
        (some (entry.read files catalog.registry.archives)) := by
  funext other
  by_cases same : other = key
  · rw [same, Function.update_self, Std.ExtTreeMap.getElem?_insert_self]
    rfl
  · have apart : key ≠ other := Ne.symm same
    rw [Function.update_of_ne same, Std.ExtTreeMap.getElem?_insert, if_neg (by simpa using apart)]
    rfl

theorem view_enter (catalog : Catalog) (key : String) (entry : Entry) :
    (catalog.enter key entry).view files =
      (catalog.view files).put ⟨key, entry.read files catalog.registry.archives, none⟩ :=
  congrArg₂ View.mk (catalog.contents_insert files key entry) rfl

/-- A new object gets a number that no class has. -/
theorem WellKept.class?_add {catalog : Catalog} (kept : catalog.WellKept) (object : ClassObject) :
    (catalog.add object).class? =
      Function.update catalog.class? object.file.name (some object) := by
  funext name
  by_cases same : name = object.file.name
  · rw [same, Function.update_self]
    apply (class?_eq_some_iff _ _ _).mpr
    exact ⟨catalog.objects.size, Std.ExtTreeMap.getElem?_insert_self, catalog.add_placed object⟩
  · rw [Function.update_of_ne same]
    have apart : object.file.name ≠ name := Ne.symm same
    have entered : (catalog.add object).registry.classes[name]? =
        catalog.registry.classes[name]? := by
      change (catalog.registry.classes.insert _ _)[name]? = _
      rw [Std.ExtTreeMap.getElem?_insert, if_neg (by simpa using apart)]
    change ((catalog.add object).registry.classes[name]?).bind _ =
      (catalog.registry.classes[name]?).bind _
    rw [entered]
    cases numbered : catalog.registry.classes[name]? with
    | none => rfl
    | some number =>
        obtain ⟨known, there, _⟩ := kept.named name number numbered
        change (catalog.objects.push object)[number]? = catalog.objects[number]?
        rw [getElem?_push_kept there, there]

theorem WellKept.view_enter_add {catalog : Catalog} (kept : catalog.WellKept) (key : String)
    (entry : Entry) (object : ClassObject) :
    ((catalog.enter key entry).add object).view files =
      (catalog.view files).put
        ⟨key, entry.read files catalog.registry.archives, some object⟩ :=
  congrArg₂ View.mk (catalog.contents_insert files key entry) (kept.class?_add object)

theorem WellKept.class?_eq_none_iff {catalog : Catalog} (kept : catalog.WellKept) (name : String) :
    catalog.class? name = none ↔ catalog.registry.classes[name]? = none := by
  change (catalog.registry.classes[name]?).bind _ = none ↔ _
  cases numbered : catalog.registry.classes[name]? with
  | none => simp only [Option.bind_none]
  | some number =>
      obtain ⟨known, there, _⟩ := kept.named name number numbered
      have found : catalog.objects[number]? = some known := there
      simp only [Option.bind_some, found, reduceCtorEq]

/-- Opening an archive, and closing one that no entry is in, is not seen. -/
theorem view_withArchives {files : FileTree} {catalog : Catalog} {archives : Array Archive}
    (same : ∀ (key : String) (entry : Entry), catalog.registry.entries[key]? = some entry →
      entry.read files archives = entry.read files catalog.registry.archives) :
    (catalog.withArchives archives).view files = catalog.view files := by
  have contents : ((catalog.withArchives archives).view files).contents =
      (catalog.view files).contents := by
    funext key
    change catalog.registry.entries[key]?.map _ = catalog.registry.entries[key]?.map _
    cases entered : catalog.registry.entries[key]? with
    | none => rfl
    | some entry => exact congrArg some (same key entry entered)
  exact congrArg₂ View.mk contents rfl

/-- Nothing is seen of a registry that nothing was registered in. -/
theorem view_empty (walker : Option Walker) :
    (⟨Registry.empty walker, #[]⟩ : Catalog).view files = ⟨fun _ => none, fun _ => none⟩ := by
  have contents (key : String) : (Registry.empty walker).entries[key]? = none :=
    Std.ExtTreeMap.getElem?_empty
  have classes (name : String) : (Registry.empty walker).classes[name]? = none :=
    Std.ExtTreeMap.getElem?_empty
  apply congrArg₂ View.mk
  · funext key
    rw [contents, Option.map_none]
  · funext name
    rw [class?, Registry.class?, classes, Option.bind_none]

theorem isFree_iff (catalog : Catalog) (added : Addition) :
    (catalog.view files).isFree added = true ↔ catalog.registry.entries[added.key]? = none ∧
      ∀ object, added.object = some object → catalog.class? object.file.name = none := by
  simp only [View.isFree, view, Bool.and_eq_true, Option.isNone_iff_eq_none,
    Option.map_eq_none_iff, Option.all_eq_true]

theorem Step.walker {files : FileTree} {own : Bool} {before after : Catalog}
    (step : Step files own before after) : after.registry.walker = before.registry.walker := by
  cases step <;> rfl

theorem Grows.walker {files : FileTree} {own : Bool} {before after : Catalog}
    (grows : Grows files own before after) : after.registry.walker = before.registry.walker := by
  induction grows with
  | refl => rfl
  | tail _ step ih => exact step.walker.trans ih

end Catalog

namespace Scan

variable {files : FileTree} {own : Bool}

/-- What is seen where a step has succeeded. -/
def seen (files : FileTree) : EStateM.Result Error Catalog Unit → Option View
  | .ok _ catalog => some (catalog.view files)
  | .error _ _ => none

theorem seen_during (context : Context) (step : Scan Unit) (catalog : Catalog) :
    seen files (during context step catalog) = seen files (step catalog) := by
  unfold during
  cases step catalog with
  | ok value after => rfl
  | error error after => rfl

/-- What a sequence adds is what its parts add, one after the other. -/
theorem seen_bind {first second : Scan Unit} {catalog : Catalog} {view? : Option View}
    {front back : Option (List Addition)}
    (start : seen files (first catalog) = View.gain view? front)
    (rest : ∀ after, first catalog = .ok () after →
      seen files (second after) = View.gain (some (after.view files)) back) :
    seen files ((do first; second : Scan Unit) catalog) =
      View.gain view? (Addition.both front back) := by
  rw [View.gain_both, ← start]
  change seen files (EStateM.bind first _ catalog) = _
  unfold EStateM.bind
  cases ran : first catalog with
  | error error after => exact (View.gain_none back).symm
  | ok value after => exact rest after ran

theorem seen_addResource (key : String) (entry : Entry) (catalog : Catalog) :
    seen files (addResource key entry catalog) = View.gain (some (catalog.view files))
      (some [⟨key, entry.read files catalog.registry.archives, none⟩]) := by
  rw [addResource_eq]
  change _ = View.take (some (catalog.view files)) _
  rw [View.take, Option.bind_some]
  cases free : catalog.registry.entries[key]? with
  | some current =>
      rw [if_neg]
      · rfl
      · rw [catalog.isFree_iff files, free]
        exact fun both => nomatch both.1
  | none =>
      rw [if_pos, ← catalog.view_enter files]
      · rfl
      · exact (catalog.isFree_iff files _).mpr ⟨free, nofun⟩

/-- A key and the class behind it are added together. -/
theorem seen_addBoth {catalog : Catalog} (kept : catalog.WellKept) (key : String) (entry : Entry) :
    seen files ((do
      addResource key entry
      addClass files key own : Scan Unit) catalog) =
        View.gain (some (catalog.view files))
          ((Addition.ofClass? own key (entry.read files catalog.registry.archives)).map ([·])) := by
  rw [addBoth_eq]
  unfold Addition.ofClass?
  cases behind : entry.read files catalog.registry.archives with
  | error error =>
      cases catalog.registry.entries[key]? with
      | some current => rfl
      | none => rfl
  | ok bytes =>
      dsimp only
      cases parsed : ClassFile.parse bytes own key with
      | error error =>
          cases catalog.registry.entries[key]? with
          | some current => rfl
          | none => rfl
      | ok found =>
          obtain ⟨file, pool⟩ := found
          change _ = View.take (some (catalog.view files)) ⟨key, .ok bytes, some ⟨file, some pool⟩⟩
          have free_iff := catalog.isFree_iff files
            ⟨key, .ok bytes, some ⟨file, some pool⟩⟩
          simp only [Option.some.injEq, forall_eq'] at free_iff
          rw [kept.class?_eq_none_iff, ← not_contains_iff] at free_iff
          rw [View.take, Option.bind_some]
          cases free : catalog.registry.entries[key]? with
          | some current =>
              rw [free] at free_iff
              rw [if_neg fun fits => nomatch (free_iff.mp fits).1]
              rfl
          | none =>
              dsimp only
              by_cases taken : catalog.registry.classes.contains file.name = true
              · rw [if_pos taken, if_neg fun fits => (free_iff.mp fits).2 taken]
                rfl
              · have placed := kept.view_enter_add files key entry ⟨file, some pool⟩
                rw [behind] at placed
                rw [if_neg taken, if_pos (free_iff.mpr ⟨free, taken⟩), ← placed]
                rfl

theorem grows_of_ok {step : Scan Unit} {catalog after : Catalog}
    (grown : Catalog.Grows files own catalog (left (step catalog)))
    (ran : step catalog = .ok () after) : Catalog.Grows files own catalog after := by
  rw [ran] at grown
  exact grown

theorem archives_addResource {key : String} {entry : Entry} {catalog after : Catalog}
    (ran : addResource key entry catalog = .ok () after) :
    after.registry.archives = catalog.registry.archives := by
  rw [addResource_eq] at ran
  split at ran
  · cases ran
  · cases ran
    rfl

theorem archives_addBoth {key : String} {entry : Entry} {catalog after : Catalog}
    (ran : (do
      addResource key entry
      addClass files key own : Scan Unit) catalog = .ok () after) :
    after.registry.archives = catalog.registry.archives := by
  rw [addBoth_eq] at ran
  split at ran
  · cases ran
  · split at ran
    · cases ran
    · split at ran
      · cases ran
      · split at ran
        · cases ran
        · cases ran
          rfl

/-- By induction on the members that are left. The archive stays at its number, so that each of them
is read from it. -/
theorem seen_addMembers {number : Nat} {path : Path.Text} {archive : Archive}
    (members : List Archive.Listed) {catalog : Catalog} (kept : catalog.WellKept)
    (there : catalog.registry.archives[number]? = some archive)
    (lists : Lists catalog number path members) :
    seen files (addMembers files number path own members catalog) =
      View.gain (some (catalog.view files))
        (Addition.together (Addition.ofMember? archive own) members) := by
  induction members generalizing catalog with
  | nil => rfl
  | cons listed rest ih =>
      have read : (Entry.member path number listed.index listed.name).read files
          catalog.registry.archives = archive.readMember listed.index := by
        simp only [Entry.read, Entry.readMember, there]
      have later (after : Catalog) (grown : Catalog.Grows files own catalog after)
          (same : after.registry.archives = catalog.registry.archives) :
          seen files (addMembers files number path own rest after) =
            View.gain (some (after.view files))
              (Addition.together (Addition.ofMember? archive own) rest) :=
        ih (Catalog.Grows.wellKept grown kept) (same ▸ there)
          (lists.mono (Catalog.Grows.keeps grown)
            fun other among => List.mem_cons_of_mem listed among)
      rw [addMembers, Addition.together]
      dsimp only
      by_cases usable : ¬ listed.isDirectory = true ∧
          (isClassName listed.name = true ∨ own = true)
      · have stands := lists.stands List.mem_cons_self usable.1
        by_cases isClass : isClassName listed.name = true
        · rw [if_pos usable]
          simp only [if_pos isClass]
          rw [← bind_assoc, Addition.ofMember?, if_pos usable, if_pos isClass, ← read]
          apply seen_bind (seen_addBoth kept _ _)
          intro after ran
          exact later after (grows_of_ok (grows_addBoth listed.name _ catalog stands) ran)
            (archives_addBoth ran)
        · rw [if_pos usable]
          simp only [if_neg isClass]
          rw [Addition.ofMember?, if_pos usable, if_neg isClass, ← read]
          apply seen_bind (seen_addResource _ _ catalog)
          intro after ran
          exact later after (grows_of_ok (grows_addResource listed.name _ catalog stands) ran)
            (archives_addResource ran)
      · rw [if_neg usable, Addition.ofMember?, if_neg usable, View.gain_both]
        exact later catalog Relation.ReflTransGen.refl rfl

theorem seen_addArchive (archive : Archive) {catalog : Catalog} (kept : catalog.WellKept) :
    seen files (addArchive files archive own catalog) =
      View.gain (some (catalog.view files)) (Addition.ofMembers? archive own) := by
  change seen files (((ofExcept archive.members >>= fun listed =>
    addMembers files catalog.registry.archives.size archive.path own listed) : Scan Unit)
      (catalog.withArchives (catalog.registry.archives.push archive))) = _
  unfold Addition.ofMembers?
  cases all : archive.members with
  | error error => rfl
  | ok listed =>
      have opens : Catalog.Step files own catalog
          (catalog.withArchives (catalog.registry.archives.push archive)) := .opens catalog archive
      have unseen : (catalog.withArchives (catalog.registry.archives.push archive)).view files =
          catalog.view files :=
        Catalog.view_withArchives fun _ _ entered => opens.read kept entered
      have lists : Lists (catalog.withArchives (catalog.registry.archives.push archive))
          catalog.registry.archives.size archive.path listed :=
        ⟨archive, Array.getElem?_push_size, rfl, members_found archive listed all⟩
      rw [← unseen]
      exact seen_addMembers listed (opens.wellKept kept) Array.getElem?_push_size lists

/-- That an unused archive is closed again is not seen. -/
theorem seen_scanArchive (path : Path.Text) {catalog : Catalog} (kept : catalog.WellKept) :
    seen files (scanArchive files path own catalog) =
      View.gain (some (catalog.view files)) (Addition.ofArchive? files path own) := by
  rw [scanArchive_eq]
  unfold Addition.ofArchive?
  cases Archive.openAt files path with
  | error error => rfl
  | ok archive =>
      have added : seen files (addArchive files archive own catalog) =
          View.gain (some (catalog.view files)) (Addition.ofMembers? archive own) :=
        seen_addArchive archive kept
      have grown : Catalog.Grows files own catalog
          (left (during (.scanningArchive path) (addArchive files archive own) catalog)) := by
        rw [left_during]
        exact grows_addArchive archive catalog
      rw [← seen_during (.scanningArchive path)] at added
      dsimp only
      rw [← added]
      cases ran : during (.scanningArchive path) (addArchive files archive own) catalog with
      | error error after => rfl
      | ok value after =>
          rw [ran] at grown
          have betweenKept : after.WellKept := Catalog.Grows.wellKept grown kept
          apply congrArg some
          split
          · rename_i none
            have closes : Catalog.Step files own after _ :=
              .closes after catalog.registry.archives.size (unused_of_grows kept grown none)
            exact Catalog.view_withArchives fun _ _ entered => closes.read betweenKept entered
          · rfl

/-- In every catalog with the walker that is told, a step adds what is told, and succeeds exactly
where all of that fits. -/
def Contributes (files : FileTree) (walker : Option Walker) (step : Scan Unit)
    (additions : Option (List Addition)) : Prop :=
  ∀ catalog : Catalog, catalog.WellKept → catalog.registry.walker = walker →
    seen files (step catalog) = View.gain (some (catalog.view files)) additions

theorem contributes_bind {walker : Option Walker} {first second : Scan Unit}
    {front back : Option (List Addition)} (growing : Growing files own first)
    (start : Contributes files walker first front) (rest : Contributes files walker second back) :
    Contributes files walker (do first; second) (Addition.both front back) := by
  intro catalog kept walked
  apply seen_bind (start catalog kept walked)
  intro after ran
  have grown := grows_of_ok (growing catalog kept) ran
  exact rest after (Catalog.Grows.wellKept grown kept)
    ((Catalog.Grows.walker grown).trans walked)

theorem contributes_scanFile (walker : Option Walker) (key : String) (path : Path.Text)
    (own : Bool) :
    Contributes files walker (scanFile files key path own)
      (Addition.ofFile? files key path own) := by
  unfold scanFile
  split
  · rename_i isClass
    rw [Addition.ofFile?, isClass]
    exact fun _ kept _ => seen_addBoth kept key (.file path)
  · rename_i isArchive
    rw [Addition.ofFile?, isArchive]
    exact fun _ kept _ => seen_scanArchive path kept
  · rename_i isArchive
    rw [Addition.ofFile?, isArchive]
    exact fun _ kept _ => seen_scanArchive path kept
  · rename_i notClass notJar notZip
    have other : Addition.ofFile? files key path own =
        some (if own then [⟨key, (Entry.file path).read files #[], none⟩] else []) := by
      unfold Addition.ofFile?
      split
      · exact absurd ‹_› notClass
      · exact absurd ‹_› notJar
      · exact absurd ‹_› notZip
      · rfl
    rw [other]
    cases own with
    | true => exact fun catalog _ _ => seen_addResource key (.file path) catalog
    | false => exact fun _ _ _ => rfl

theorem contributes_scanFiles (walker : Option Walker) (root : Path.Text) (own : Bool)
    (paths : List Path.Text) :
    Contributes files walker (scanFiles files root own paths)
      (Addition.together
        (fun path => Addition.ofFile? files (Path.relativeKey root path) path own) paths) := by
  induction paths with
  | nil => exact fun _ _ _ => rfl
  | cons path rest ih =>
      exact contributes_bind (growing_scanFile (Path.relativeKey root path) path)
        (contributes_scanFile walker (Path.relativeKey root path) path own) ih

theorem contributes_scanDirectory (walker : Option Walker) (root : Path.Text) (own : Bool) :
    Contributes files walker (scanDirectory files root own)
      (Addition.ofDirectory? files walker root own) := by
  intro catalog kept walked
  rw [scanDirectory_eq, walked]
  unfold Addition.ofDirectory?
  cases walker with
  | none => rfl
  | some walk =>
      dsimp only
      cases walk files root with
      | error error => rfl
      | ok paths => exact contributes_scanFiles (some walk) root own paths catalog kept walked

/-- What a scan adds does not depend on the catalog. -/
theorem contributes_scan (files : FileTree) (walker : Option Walker) (path : Path.Text)
    (own : Bool) :
    Contributes files walker (scan files path own) (Addition.ofInput? files walker path own) := by
  unfold scan Addition.ofInput?
  by_cases directory : files.isDirectory path = true
  · rw [if_pos directory, if_pos directory]
    exact contributes_scanDirectory walker path own
  · rw [if_neg directory, if_neg directory]
    cases Path.fileName? path with
    | some name => exact contributes_scanFile walker name.shown path own
    | none => exact fun _ _ _ => rfl

end Scan

end Classpath
