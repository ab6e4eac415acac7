import Classpath.Registry.Scan

/-!
What holds of a registry whatever has happened to it: a class goes by its own name and stands
behind a key of its own, and an entry of an archive is the member that its key names.
-/

set_option autoImplicit false

namespace Classpath

section Maps

variable {β : Type} {map : Std.ExtTreeMap String β} {key other : String} {value found : β}

theorem getElem?_insert_iff : (map.insert key value)[other]? = some found ↔
    (key = other ∧ value = found) ∨ (key ≠ other ∧ map[other]? = some found) := by
  rw [Std.ExtTreeMap.getElem?_insert]
  by_cases same : key = other
  · simp [same]
  · simp [same]

theorem getElem?_insert_eq_none_iff :
    (map.insert key value)[other]? = none ↔ key ≠ other ∧ map[other]? = none := by
  rw [Std.ExtTreeMap.getElem?_insert]
  by_cases same : key = other
  · simp [same]
  · simp [same]

theorem getElem?_insert_kept (free : map[key]? = none) (entered : map[other]? = some found) :
    (map.insert key value)[other]? = some found := by
  have apart : key ≠ other := by
    intro same
    rw [same, entered] at free
    cases free
  exact getElem?_insert_iff.mpr (Or.inr ⟨apart, entered⟩)

theorem size_insert_free (free : map[key]? = none) :
    (map.insert key value).size = map.size + 1 := by
  have absent : ¬ map.contains key = true := by
    rw [Std.ExtTreeMap.contains_eq_isSome_getElem?, free]
    simp
  rw [Std.ExtTreeMap.size_insert, if_neg absent]

end Maps

theorem getElem?_push_kept {α : Type} {items : Array α} {index : Nat} {item added : α}
    (there : items[index]? = some item) : (items.push added)[index]? = some item := by
  have inside : index < items.size := (Array.getElem?_eq_some_iff.mp there).1
  rw [Array.getElem?_push, if_neg (Nat.ne_of_lt inside), there]

theorem setIfInBounds_self {α : Type} {items : Array α} {index : Nat} {item : α}
    (there : items[index]? = some item) : items.setIfInBounds index item = items := by
  apply Array.ext_getElem?
  intro other
  rw [Array.getElem?_setIfInBounds]
  split
  · rename_i same
    rw [← same, there, if_pos (Array.getElem?_eq_some_iff.mp there).1]
  · rfl

/-- Archives stay where they are with what they hold, though they may be closed. -/
def KeepsArchives (before after : Array Archive) : Prop :=
  ∀ (number : Nat) (archive : Archive), before[number]? = some archive →
    ∃ later, after[number]? = some later ∧ later.path = archive.path ∧ later.file = archive.file

namespace KeepsArchives

theorem refl (archives : Array Archive) : KeepsArchives archives archives :=
  fun _ archive there => ⟨archive, there, rfl, rfl⟩

theorem trans {first second third : Array Archive} (front : KeepsArchives first second)
    (back : KeepsArchives second third) : KeepsArchives first third := by
  intro number archive there
  obtain ⟨later, laterThere, samePath, sameFile⟩ := front number archive there
  obtain ⟨last, lastThere, lastPath, lastFile⟩ := back number later laterThere
  exact ⟨last, lastThere, lastPath.trans samePath, lastFile.trans sameFile⟩

theorem push (archives : Array Archive) (archive : Archive) :
    KeepsArchives archives (archives.push archive) :=
  fun _ kept there => ⟨kept, getElem?_push_kept there, rfl, rfl⟩

theorem close (archives : Array Archive) (number : Nat) :
    KeepsArchives archives (archives.modify number Archive.close) := by
  intro index archive there
  have inside : index < archives.size := (Array.getElem?_eq_some_iff.mp there).1
  by_cases same : number = index
  · refine ⟨archive.close, ?_, rfl, rfl⟩
    rw [Array.getElem?_modify, if_pos same, there]
    rfl
  · refine ⟨archive, ?_, rfl, rfl⟩
    rw [Array.getElem?_modify, if_neg same, there]

end KeepsArchives

namespace Entry

/-- The number of the archive that an entry is in. -/
def archive? : Entry → Option Nat
  | file _ => none
  | member _ archive _ _ => some archive

/-- What may stand behind a key: a file, or the member of an open or closed archive that goes by
that key and is no directory. -/
def StandsFor (archives : Array Archive) (key : String) : Entry → Prop
  | file _ => True
  | member path archive index name =>
      name = key ∧ ∃ opened listed, archives[archive]? = some opened ∧ opened.path = path ∧
        opened.file.members[index]? = some listed ∧ listed.name = key ∧
          listed.isDirectory = false

theorem StandsFor.mono {before after : Array Archive} {key : String} {entry : Entry}
    (stands : entry.StandsFor before key) (keeps : KeepsArchives before after) :
    entry.StandsFor after key := by
  cases entry with
  | file path => trivial
  | member path archive index name =>
      obtain ⟨named, opened, listed, there, samePath, found, goes, plain⟩ := stands
      obtain ⟨later, laterThere, laterPath, laterFile⟩ := keeps archive opened there
      exact ⟨named, later, listed, laterThere, laterPath.trans samePath, laterFile ▸ found, goes,
        plain⟩

/-- What stands for a key is in an archive that there is. -/
theorem StandsFor.archive_lt {archives : Array Archive} {key : String} {entry : Entry}
    (stands : entry.StandsFor archives key) {number : Nat}
    (within : entry.archive? = some number) : number < archives.size := by
  cases entry with
  | file path => cases within
  | member path archive index name =>
      obtain ⟨_, opened, _, there, _⟩ := stands
      have same : archive = number := Option.some.inj within
      exact same ▸ (Array.getElem?_eq_some_iff.mp there).1

end Entry

/-- What holds of a registry among the class objects there are. -/
structure Registry.WellKept (objects : Array ClassObject) (registry : Registry) : Prop where
  /-- A class goes by its name. -/
  named : ∀ (name : String) (number : ClassNumber), registry.classes[name]? = some number →
    ∃ object : ClassObject, objects[number]? = some object ∧ object.file.name = name
  /-- The source of a class is registered. -/
  sourced : ∀ (name : String) (number : ClassNumber) (object : ClassObject),
    registry.classes[name]? = some number → objects[number]? = some object →
      ∃ entry, registry.entries[object.file.source]? = some entry
  /-- No two classes have one source. -/
  apart : ∀ (name other : String) (number otherNumber : ClassNumber)
      (object otherObject : ClassObject),
    registry.classes[name]? = some number → registry.classes[other]? = some otherNumber →
    objects[number]? = some object → objects[otherNumber]? = some otherObject →
    object.file.source = otherObject.file.source → name = other
  /-- What is in an archive is a member of it that goes by the key. -/
  stands : ∀ (key : String) (entry : Entry), registry.entries[key]? = some entry →
    entry.StandsFor registry.archives key

namespace Registry.WellKept

theorem empty (objects : Array ClassObject) (walker : Option Walker) :
    (Registry.empty walker).WellKept objects := by
  have noClass (name : String) : (Registry.empty walker).classes[name]? = none :=
    Std.ExtTreeMap.getElem?_empty
  have noEntry (key : String) : (Registry.empty walker).entries[key]? = none :=
    Std.ExtTreeMap.getElem?_empty
  constructor
  · intro name number entered
    rw [noClass] at entered
    cases entered
  · intro name number object entered
    rw [noClass] at entered
    cases entered
  · intro name other number otherNumber object otherObject entered
    rw [noClass] at entered
    cases entered
  · intro key entry entered
    rw [noEntry] at entered
    cases entered

/-- More objects, and others with the same classes, make no difference to a registry. -/
theorem mono {before after : Array ClassObject} {registry : Registry}
    (kept : registry.WellKept before)
    (same : ∀ (number : Nat) (object : ClassObject), before[number]? = some object →
      ∃ later, after[number]? = some later ∧ later.file = object.file) :
    registry.WellKept after := by
  have numbered (name : String) (number : Nat) (later : ClassObject)
      (entered : registry.classes[name]? = some number) (there : after[number]? = some later) :
      ∃ object, before[number]? = some object ∧ later.file = object.file := by
    obtain ⟨object, objectThere, _⟩ := kept.named name number entered
    obtain ⟨found, foundThere, sameFile⟩ := same number object objectThere
    have one : found = later := Option.some.inj (foundThere.symm.trans there)
    exact ⟨object, objectThere, one ▸ sameFile⟩
  constructor
  · intro name number entered
    obtain ⟨object, there, named⟩ := kept.named name number entered
    obtain ⟨later, laterThere, sameFile⟩ := same number object there
    exact ⟨later, laterThere, by rw [sameFile, named]⟩
  · intro name number later entered there
    obtain ⟨object, objectThere, sameFile⟩ := numbered name number later entered there
    rw [sameFile]
    exact kept.sourced name number object entered objectThere
  · intro name other number otherNumber later otherLater entered otherEntered there otherThere one
    obtain ⟨object, objectThere, sameFile⟩ := numbered name number later entered there
    obtain ⟨otherObject, otherObjectThere, otherSame⟩ :=
      numbered other otherNumber otherLater otherEntered otherThere
    rw [sameFile, otherSame] at one
    exact kept.apart name other number otherNumber object otherObject entered otherEntered
      objectThere otherObjectThere one
  · exact kept.stands

/-- Other archives, with what was in the old ones, make no difference either. -/
theorem withArchives {objects : Array ClassObject} {registry : Registry}
    (kept : registry.WellKept objects) {archives : Array Archive}
    (keeps : KeepsArchives registry.archives archives) :
    { registry with archives }.WellKept objects :=
  ⟨kept.named, kept.sourced, kept.apart, fun key entry entered =>
    (kept.stands key entry entered).mono keeps⟩

end Registry.WellKept

end Classpath
