import Classpath.Proofs.Registry.Scanning

/-!
Which archives of a registry are open: of those that were opened since it was closed, the ones that
entries are in. Whatever is scanned keeps it so, and closing a registry closes all its archives.
-/

set_option autoImplicit false

namespace Classpath

theorem Archive.isOpen_openAt {files : FileTree} {path : Path.Text} {archive : Archive}
    (opened : Archive.openAt files path = .ok archive) : archive.isOpen = true := by
  unfold Archive.openAt at opened
  split at opened
  · cases opened
  · cases opened
  · split at opened
    · cases opened
    · cases opened
      rfl

namespace Registry

/-- Some entry is in the archive. -/
def Uses (registry : Registry) (handle : Nat) : Prop :=
  ∃ (key : String) (entry : Entry), registry.entries[key]? = some entry ∧
    entry.archive? = some handle

/-- Of the archives from `floor` on, those are open that entries are in, and of the others none. -/
structure HandlesKept (floor : Nat) (registry : Registry) : Prop where
  floor_le : floor ≤ registry.archives.size
  isOpen_iff : ∀ (handle : Nat) (archive : Archive), registry.archives[handle]? = some archive →
    (archive.isOpen = true ↔ floor ≤ handle ∧ registry.Uses handle)

theorem HandlesKept.empty (walker : Option Walker) : (Registry.empty walker).HandlesKept 0 := by
  constructor
  · exact Nat.zero_le _
  · intro handle archive there
    change (#[] : Array Archive)[handle]? = some archive at there
    simp at there

end Registry

namespace Catalog

/-- Nothing but entries has been added to the registry, all of them in the archive `within`, or in
none. -/
structure Enters (within : Option Nat) (before after : Catalog) : Prop where
  kept : ∀ (key : String) (entry : Entry), before.registry.entries[key]? = some entry →
    after.registry.entries[key]? = some entry
  new : ∀ (key : String) (entry : Entry), after.registry.entries[key]? = some entry →
    before.registry.entries[key]? = some entry ∨ entry.archive? = within
  archives : after.registry.archives = before.registry.archives

namespace Enters

variable {within : Option Nat} {before between after : Catalog}

theorem refl (within : Option Nat) (catalog : Catalog) : catalog.Enters within catalog :=
  ⟨fun _ _ there => there, fun _ _ there => Or.inl there, rfl⟩

theorem trans (front : before.Enters within between) (back : between.Enters within after) :
    before.Enters within after where
  kept key entry there := back.kept key entry (front.kept key entry there)
  new key entry there := by
    rcases back.new key entry there with old | placed
    · exact front.new key entry old
    · exact Or.inr placed
  archives := back.archives.trans front.archives

theorem enter (catalog : Catalog) {key : String} (entry : Entry)
    (free : catalog.registry.entries[key]? = none) :
    catalog.Enters entry.archive? (catalog.enter key entry) where
  kept _ _ there := getElem?_insert_kept free there
  new other found there := by
    rcases getElem?_insert_iff.mp there with ⟨_, rfl⟩ | ⟨_, old⟩
    · exact Or.inr rfl
    · exact Or.inl old
  archives := rfl

theorem uses_iff (enters : before.Enters within after) {handle : Nat}
    (other : within ≠ some handle) :
    after.registry.Uses handle ↔ before.registry.Uses handle := by
  constructor
  · intro used
    obtain ⟨key, entry, there, placed⟩ := used
    rcases enters.new key entry there with old | new
    · exact ⟨key, entry, old, placed⟩
    · exact absurd (new.symm.trans placed) other
  · intro used
    obtain ⟨key, entry, there, placed⟩ := used
    exact ⟨key, entry, enters.kept key entry there, placed⟩

/-- An archive that nothing was entered from is one with no more keys than before. -/
theorem entries_eq {handle : Nat} (enters : before.Enters (some handle) after)
    (unused : ¬ after.registry.Uses handle) :
    after.registry.entries = before.registry.entries := by
  apply Std.ExtTreeMap.ext_getElem?
  intro key
  cases old : before.registry.entries[key]? with
  | some entry => exact enters.kept key entry old
  | none =>
      cases there : after.registry.entries[key]? with
      | none => rfl
      | some entry =>
          rcases enters.new key entry there with known | placed
          · rw [old] at known
            cases known
          · exact absurd ⟨key, entry, there, placed⟩ unused

end Enters

/-- Entries that are in no archive make no difference to the archives. -/
theorem Enters.handlesKept {before after : Catalog} {floor : Nat}
    (enters : before.Enters none after) (kept : before.registry.HandlesKept floor) :
    after.registry.HandlesKept floor := by
  constructor
  · rw [enters.archives]
    exact kept.floor_le
  · intro handle archive there
    rw [enters.archives] at there
    rw [enters.uses_iff nofun]
    exact kept.isOpen_iff handle archive there

/-- What a scan may do: it adds entries, and opens archives for them and for nothing else. -/
structure KeepsHandles (before after : Catalog) : Prop where
  wellKept : after.WellKept
  handles : ∀ floor, before.registry.HandlesKept floor → after.registry.HandlesKept floor
  new : ∀ (key : String) (entry : Entry), after.registry.entries[key]? = some entry →
    before.registry.entries[key]? = some entry ∨ ∀ handle, entry.archive? = some handle →
      before.registry.archives.size ≤ handle
  larger : before.registry.archives.size ≤ after.registry.archives.size

theorem KeepsHandles.refl {catalog : Catalog} (kept : catalog.WellKept) :
    catalog.KeepsHandles catalog :=
  ⟨kept, fun _ handles => handles, fun _ _ there => Or.inl there, Nat.le_refl _⟩

theorem KeepsHandles.trans {before between after : Catalog} (front : before.KeepsHandles between)
    (back : between.KeepsHandles after) : before.KeepsHandles after where
  wellKept := back.wellKept
  handles floor kept := back.handles floor (front.handles floor kept)
  new key entry there := by
    rcases back.new key entry there with old | late
    · exact front.new key entry old
    · exact Or.inr fun handle placed => Nat.le_trans front.larger (late handle placed)
  larger := Nat.le_trans front.larger back.larger

theorem Enters.keepsHandles {before after : Catalog} (enters : before.Enters none after)
    (kept : after.WellKept) : before.KeepsHandles after where
  wellKept := kept
  handles _ handles := enters.handlesKept handles
  new key entry there := by
    rcases enters.new key entry there with old | nowhere
    · exact Or.inl old
    · exact Or.inr fun handle placed => nomatch nowhere.symm.trans placed
  larger := Nat.le_of_eq (congrArg Array.size enters.archives).symm

section Opened

variable {before after : Catalog} {archive : Archive} {floor : Nat}
  (enters : (before.withArchives (before.registry.archives.push archive)).Enters
    (some before.registry.archives.size) after)
  (kept : before.registry.HandlesKept floor)

include enters kept

/-- What is known of an archive other than the one that has been opened. -/
theorem isOpen_iff_of_ne {handle : Nat} (other : handle ≠ before.registry.archives.size)
    {found : Archive} (there : after.registry.archives[handle]? = some found) :
    found.isOpen = true ↔ floor ≤ handle ∧ after.registry.Uses handle := by
  rw [enters.archives] at there
  change (before.registry.archives.push archive)[handle]? = some found at there
  rw [Array.getElem?_push, if_neg other] at there
  have apart : some before.registry.archives.size ≠ some handle := by
    intro same
    exact other (Option.some.inj same).symm
  rw [enters.uses_iff apart]
  exact kept.isOpen_iff handle found there

omit kept in
/-- What was entered is in the archive that was opened last. -/
theorem new_of_opened (key : String) (entry : Entry)
    (there : after.registry.entries[key]? = some entry) :
    before.registry.entries[key]? = some entry ∨ ∀ handle, entry.archive? = some handle →
      before.registry.archives.size ≤ handle := by
  rcases enters.new key entry there with old | placed
  · exact Or.inl old
  · right
    intro handle found
    exact Nat.le_of_eq (Option.some.inj (placed.symm.trans found))

omit kept in
theorem size_of_opened : after.registry.archives.size = before.registry.archives.size + 1 := by
  rw [enters.archives]
  exact Array.size_push archive

/-- An archive that something was entered from stays open. -/
theorem handlesKept_of_used (opened : archive.isOpen = true)
    (used : after.registry.Uses before.registry.archives.size) :
    after.registry.HandlesKept floor := by
  have lower := kept.floor_le
  have sized := size_of_opened enters
  constructor
  · omega
  · intro handle found there
    by_cases same : handle = before.registry.archives.size
    · rw [enters.archives, same] at there
      have one : archive = found := Option.some.inj (Array.getElem?_push_size.symm.trans there)
      rw [← one, same]
      exact iff_of_true opened ⟨lower, used⟩
    · exact isOpen_iff_of_ne enters kept same there

/-- One that nothing was entered from is closed again. -/
theorem handlesKept_of_unused (unused : ¬ after.registry.Uses before.registry.archives.size) :
    (after.withArchives (after.registry.archives.modify before.registry.archives.size
      Archive.close)).registry.HandlesKept floor := by
  have lower := kept.floor_le
  have sized := size_of_opened enters
  constructor
  · change floor ≤ (after.registry.archives.modify _ _).size
    rw [Array.size_modify]
    omega
  · intro handle found there
    change (after.registry.archives.modify _ _)[handle]? = some found at there
    rw [Array.getElem?_modify] at there
    change _ ↔ _ ∧ after.registry.Uses handle
    split at there
    · rename_i same
      obtain ⟨archive, _, rfl⟩ := Option.map_eq_some_iff.mp there
      rw [← same]
      exact iff_of_false (by simp [Archive.close]) fun both => unused both.2
    · rename_i other
      exact isOpen_iff_of_ne enters kept (Ne.symm other) there

omit kept

theorem keepsHandles_of_used (wellKept : after.WellKept) (opened : archive.isOpen = true)
    (used : after.registry.Uses before.registry.archives.size) : before.KeepsHandles after where
  wellKept := wellKept
  handles _ kept := handlesKept_of_used enters kept opened used
  new := new_of_opened enters
  larger := by
    have sized := size_of_opened enters
    omega

theorem keepsHandles_of_unused
    (wellKept : (after.withArchives (after.registry.archives.modify before.registry.archives.size
      Archive.close)).WellKept)
    (unused : ¬ after.registry.Uses before.registry.archives.size) :
    before.KeepsHandles (after.withArchives (after.registry.archives.modify
      before.registry.archives.size Archive.close)) where
  wellKept := wellKept
  handles _ kept := handlesKept_of_unused enters kept unused
  new key entry there := new_of_opened enters key entry there
  larger := by
    have sized := size_of_opened enters
    change _ ≤ (Array.modify _ _ _).size
    rw [Array.size_modify]
    omega

end Opened

end Catalog

namespace Scan

open Catalog (Enters KeepsHandles)

variable {files : FileTree} {own : Bool}

theorem enters_bind {α β : Type} {within : Option Nat} {first : Scan α} {next : α → Scan β}
    {catalog : Catalog} (start : Enters within catalog (left (first catalog)))
    (rest : ∀ value after, Enters within after (left (next value after))) :
    Enters within catalog (left ((first >>= next) catalog)) :=
  related_bind (Enters within) Enters.trans start fun value after _ => rest value after

theorem enters_addResource (key : String) (entry : Entry) (catalog : Catalog) :
    Enters entry.archive? catalog (left (addResource key entry catalog)) := by
  rw [addResource_eq]
  cases free : catalog.registry.entries[key]? with
  | some current => exact .refl _ catalog
  | none => exact .enter catalog entry free

theorem enters_addBoth (key : String) (entry : Entry) (catalog : Catalog) :
    Enters entry.archive? catalog (left ((do
      addResource key entry
      addClass files key own : Scan Unit) catalog)) := by
  rw [addBoth_eq]
  cases free : catalog.registry.entries[key]? with
  | some current => exact .refl _ catalog
  | none =>
      have registered : Enters entry.archive? catalog (catalog.enter key entry) :=
        .enter catalog entry free
      cases entry.read files catalog.registry.archives with
      | error error => exact registered
      | ok bytes =>
          dsimp only
          cases ClassFile.parse bytes own key with
          | error error => exact registered
          | ok found =>
              dsimp only
              split
              · exact registered
              · exact ⟨registered.kept, registered.new, registered.archives⟩

theorem enters_addMembers (number : Nat) (path : Path.Text) (members : List Archive.Listed)
    (catalog : Catalog) :
    Enters (some number) catalog (left (addMembers files number path own members catalog)) := by
  induction members generalizing catalog with
  | nil => exact .refl _ catalog
  | cons listed rest ih =>
      rw [addMembers]
      dsimp only
      split
      · by_cases isClass : isClassName listed.name = true
        · simp only [if_pos isClass]
          rw [← bind_assoc]
          exact enters_bind (enters_addBoth listed.name
            (.member path number listed.index listed.name) catalog) fun _ => ih
        · simp only [if_neg isClass]
          exact enters_bind (enters_addResource listed.name
            (.member path number listed.index listed.name) catalog) fun _ => ih
      · exact ih catalog

theorem enters_addArchive (archive : Archive) (catalog : Catalog) :
    Enters (some catalog.registry.archives.size)
      (catalog.withArchives (catalog.registry.archives.push archive))
      (left (addArchive files archive own catalog)) := by
  change Enters _ _ (left (((ofExcept archive.members >>= fun listed =>
    addMembers files catalog.registry.archives.size archive.path own listed) : Scan Unit)
      (catalog.withArchives (catalog.registry.archives.push archive))))
  cases archive.members with
  | error error => exact .refl _ _
  | ok listed => exact enters_addMembers _ _ listed _

/-- By whether something was entered from the archive, which is what the number of keys tells. -/
theorem keepsHandles_scanArchive (files : FileTree) (path : Path.Text) (own : Bool) :
    Across KeepsHandles (scanArchive files path own) := by
  intro catalog kept
  have grown : Catalog.Grows files own catalog (left (scanArchive files path own catalog)) :=
    growing_scanArchive path catalog kept
  have wellKept := Catalog.Grows.wellKept grown kept
  cases opened : Archive.openAt files path with
  | error error =>
      rw [scanArchive_eq, opened]
      exact .refl kept
  | ok archive =>
      have isOpen := Archive.isOpen_openAt opened
      have enters : Enters (some catalog.registry.archives.size)
          (catalog.withArchives (catalog.registry.archives.push archive))
          (left (addArchive files archive own catalog)) := enters_addArchive archive catalog
      rw [left_scanArchive opened] at wellKept ⊢
      dsimp only at wellKept ⊢
      by_cases used : (left (addArchive files archive own catalog)).registry.Uses
          catalog.registry.archives.size
      · have larger : ¬ (left (addArchive files archive own catalog)).registry.entries.size =
            catalog.registry.entries.size := by
          intro none
          have grows : Catalog.Grows files own catalog
              (left (addArchive files archive own catalog)) := grows_addArchive archive catalog
          obtain ⟨key, entry, there, placed⟩ := used
          exact unused_of_grows kept grows none key entry there placed
        rw [if_neg larger] at wellKept ⊢
        exact Catalog.keepsHandles_of_used enters wellKept isOpen used
      · have none : (left (addArchive files archive own catalog)).registry.entries.size =
            catalog.registry.entries.size :=
          congrArg Std.ExtTreeMap.size (enters.entries_eq used)
        rw [if_pos none] at wellKept ⊢
        exact Catalog.keepsHandles_of_unused enters wellKept used

theorem keepsHandles_keptByScans (files : FileTree) (own : Bool) :
    KeptByScans files own KeepsHandles where
  refl _ := .refl
  trans := .trans
  wellKept kept _ := kept.wellKept
  resource key path catalog kept := by
    have grown := (grows_keptByScans files own).resource key path catalog kept
    exact (enters_addResource key (.file path) catalog).keepsHandles
      (Catalog.Grows.wellKept grown kept)
  both key path catalog kept := by
    have grown := (grows_keptByScans files own).both key path catalog kept
    exact (enters_addBoth key (.file path) catalog).keepsHandles
      (Catalog.Grows.wellKept grown kept)
  archive path := keepsHandles_scanArchive files path own

theorem keepsHandles_scan (files : FileTree) (path : Path.Text) (own : Bool) :
    Across KeepsHandles (scan files path own) :=
  across_scan (keepsHandles_keptByScans files own) path

end Scan

end Classpath
