import Classpath.Proofs.Files.Components
import Classpath.Proofs.Registry.Packing
import Classpath.Proofs.Registry.Reloading
import Classpath.Proofs.Registry.Scanning

/-!
The sources of class objects. Main statement: scans and reloads only make objects whose source has
the suffix of classes, wherever the class was found.
-/

set_option autoImplicit false

namespace Classpath

/-- Every object is one of a class that was found behind a name with the suffix of classes. -/
def SourcesNamed (objects : Array ClassObject) : Prop :=
  ∀ (number : ClassNumber) (object : ClassObject), objects[number]? = some object →
    Scan.isClassName object.file.source = true

theorem SourcesNamed.push {objects : Array ClassObject} (named : SourcesNamed objects)
    {object : ClassObject} (sourced : Scan.isClassName object.file.source = true) :
    SourcesNamed (objects.push object) := by
  intro number found there
  rw [Array.getElem?_push] at there
  split at there
  · cases there
    exact sourced
  · exact named number found there

/-- An object of a swapped catalog was there before or has been read again. -/
theorem Catalog.mem_swap (catalog : Catalog) (reread : Reread) {number : ClassNumber}
    {object : ClassObject} (there : (catalog.swap reread).objects[number]? = some object) :
    catalog.objects[number]? = some object ∨ ∃ name : String, reread[name]? = some object := by
  rw [← Array.getElem?_toList] at there
  change (enterAll catalog.objects ∅ reread.toList).1.toList[number]? = _ at there
  rw [toList_enterAll, List.getElem?_append] at there
  split at there
  · exact Or.inl (Array.getElem?_toList ▸ there)
  · obtain ⟨⟨name, found⟩, among, rfl⟩ := List.mem_map.mp (List.mem_of_getElem? there)
    exact Or.inr ⟨name, Std.ExtTreeMap.mem_toList_iff_getElem?_eq_some.mp among⟩

namespace Scan

/-- What has the extension of classes has the suffix. -/
theorem isClassName_of_extension {name : Path.Text}
    (extended : (Path.nameExtension? name).bind Path.Text.string? = some "class") :
    isClassName name.shown = true := by
  obtain ⟨stem, _, whole⟩ := (Path.string?_nameExtension?_eq_some_iff (by decide)).mp extended
  exact (isClassName_shown_iff name).mpr ⟨stem, whole.symm⟩

/-- A class that is read below a directory has a key with the suffix: only a path that leads to the
directory itself has another. -/
theorem isClassName_relativeKey {files : FileTree} {root path : Path.Text} {bytes : Bytes}
    (directory : files.isDirectory root = true) (read : files.read path = .ok bytes)
    (extended : Path.extension? path = some "class") :
    isClassName (Path.relativeKey root path) = true := by
  have apart : Path.components path ≠ Path.components root := by
    intro same
    unfold FileTree.read at read
    unfold FileTree.isDirectory at directory
    split at read
    · rename_i content found
      split at directory
      · rename_i children rootFound
        cases FileTree.find_unique same found rootFound
      · cases directory
    · cases read
    · cases read
  rw [Path.extension?, Option.bind_assoc] at extended
  obtain ⟨name, named, extension⟩ := Option.bind_eq_some_iff.mp extended
  rw [Path.relativeKey, isClassName_intercalate (Path.getLast?_relativeKey named apart)]
  exact isClassName_of_extension extension

/-- A step makes no object with another source, however it ends. -/
def NamesSources {α : Type} (step : Scan α) : Prop :=
  ∀ catalog : Catalog, SourcesNamed catalog.objects → SourcesNamed (left (step catalog)).objects

namespace NamesSources

variable {α β : Type} {files : FileTree} {own : Bool}

theorem pure (value : α) : NamesSources (Pure.pure value : Scan α) := fun _ named => named

theorem throw (error : Error) : NamesSources (throw error : Scan α) := fun _ named => named

theorem bind {first : Scan α} {next : α → Scan β} (start : NamesSources first)
    (rest : ∀ value, NamesSources (next value)) : NamesSources (first >>= next) := by
  intro catalog named
  exact related_bind
    (fun before after => SourcesNamed before.objects → SourcesNamed after.objects)
    (fun one other held => other (one held)) (start catalog)
    (fun value after _ => rest value after) named

theorem addResource (key : String) (entry : Entry) : NamesSources (addResource key entry) := by
  intro catalog named
  rw [addResource_eq]
  split
  · exact named
  · exact named

/-- A class gets the key that it is read behind for its source. -/
theorem addBoth {key : String} {entry : Entry}
    (sourced : ∀ archives bytes, entry.read files archives = .ok bytes →
      isClassName key = true) :
    NamesSources (do
      Scan.addResource key entry
      addClass files key own) := by
  intro catalog named
  rw [addBoth_eq]
  split
  · exact named
  · split
    · exact named
    · rename_i bytes read
      split
      · exact named
      · rename_i file pool parsed
        split
        · exact named
        · apply SourcesNamed.push named
          change isClassName file.source = true
          rw [(ClassFile.parse_origin parsed).2]
          exact sourced _ bytes read

theorem addMembers (archive : Nat) (path : Path.Text) (members : List Archive.Listed) :
    NamesSources (addMembers files archive path own members) := by
  induction members with
  | nil => exact pure ()
  | cons member rest ih =>
      rw [Scan.addMembers]
      dsimp only
      split
      · by_cases isClass : isClassName member.name = true
        · simp only [if_pos isClass]
          rw [← bind_assoc]
          exact (addBoth fun _ _ _ => isClass).bind fun _ => ih
        · simp only [if_neg isClass]
          exact (addResource _ _).bind fun _ => ih
      · exact ih

theorem addArchive (archive : Archive) : NamesSources (addArchive files archive own) := by
  intro catalog named
  change SourcesNamed (left ((ofExcept archive.members >>= fun listed =>
    Scan.addMembers files catalog.registry.archives.size archive.path own listed : Scan Unit)
      (catalog.withArchives (catalog.registry.archives.push archive)))).objects
  cases archive.members with
  | error error => exact named
  | ok members => exact addMembers _ archive.path members _ named

theorem scanArchive (path : Path.Text) : NamesSources (scanArchive files path own) := by
  intro catalog named
  cases opened : Archive.openAt files path with
  | error error =>
      rw [Scan.scanArchive_eq, opened]
      exact named
  | ok archive =>
      rw [left_scanArchive opened]
      dsimp only
      split
      · exact addArchive archive catalog named
      · exact addArchive archive catalog named

theorem scanFile {key : String} {path : Path.Text}
    (sourced : ∀ bytes, Path.extension? path = some "class" → files.read path = .ok bytes →
      isClassName key = true) :
    NamesSources (scanFile files key path own) := by
  unfold Scan.scanFile
  split
  · rename_i extended
    apply addBoth
    intro archives bytes read
    rw [Entry.read] at read
    cases content : files.read path with
    | error cause =>
        rw [content] at read
        cases read
    | ok found => exact sourced found extended content
  · exact scanArchive path
  · exact scanArchive path
  · split
    · exact addResource key (.file path)
    · exact pure ()

theorem scanFiles {root : Path.Text} (directory : files.isDirectory root = true)
    (paths : List Path.Text) : NamesSources (scanFiles files root own paths) := by
  induction paths with
  | nil => exact pure ()
  | cons path rest ih =>
      have first : NamesSources (Scan.scanFile files (Path.relativeKey root path) path own) :=
        scanFile fun bytes extended read => isClassName_relativeKey directory read extended
      exact first.bind fun _ => ih

theorem scanDirectory {root : Path.Text} (directory : files.isDirectory root = true) :
    NamesSources (scanDirectory files root own) := by
  intro catalog named
  rw [scanDirectory_eq]
  split
  · exact named
  · split
    · exact named
    · exact scanFiles directory _ catalog named

theorem scan (path : Path.Text) : NamesSources (scan files path own) := by
  unfold Scan.scan
  split
  · rename_i directory
    exact scanDirectory directory
  · split
    · rename_i name named
      apply scanFile
      intro bytes extended _
      rw [Path.extension?, named] at extended
      exact isClassName_of_extension extended
    · exact throw _

/-- Each class that is read again keeps its source. -/
theorem reload (files : FileTree) : NamesSources (reload files) := by
  intro catalog named
  rw [reload_eq, reloadInOrder_eq]
  cases ran : catalog.registry.rereadAll files catalog.oldClasses ∅ with
  | error error => exact named
  | ok reread =>
      obtain ⟨_, _, gathers, _⟩ := Registry.rereadAll_sound catalog.oldClasses ∅ reread ran
      intro number object there
      change (catalog.swap reread).objects[number]? = some object at there
      rcases Catalog.mem_swap catalog reread there with old | ⟨name, found⟩
      · exact named number object old
      -- What is read again has the source of the class that it stands in for.
      · rcases (gathers name object).mp found with ⟨old, among, rereads, _⟩ | none
        · obtain ⟨oldName, oldObject, registered, rfl⟩ := (catalog.mem_oldClasses old).mp among
          obtain ⟨oldNumber, _, oldThere⟩ :=
            (catalog.class?_eq_some_iff oldName oldObject).mp registered
          rw [rereads.origin.2]
          exact named oldNumber oldObject oldThere
        · rw [Std.ExtTreeMap.getElem?_empty] at none
          cases none

end NamesSources

end Scan

end Classpath
