import Mathlib.Logic.Relation
import Classpath.Proofs.ClassFile.Grammar
import Classpath.Proofs.Registry.WellKept

/-!
How scans change a catalog. Each scan, however it ends, leads through steps of four kinds, so that
what those steps keep is kept by all scans.
-/

set_option autoImplicit false

namespace Classpath

namespace Catalog

def withArchives (catalog : Catalog) (archives : Array Archive) : Catalog :=
  { catalog with registry := { catalog.registry with archives } }

def enter (catalog : Catalog) (key : String) (entry : Entry) : Catalog :=
  let entries := catalog.registry.entries.insert key entry
  { catalog with registry := { catalog.registry with entries } }

theorem entries_enter_of_ne {catalog : Catalog} {key other : String} {entry : Entry}
    (apart : key ≠ other) :
    (catalog.enter key entry).registry.entries[other]? = catalog.registry.entries[other]? := by
  change (catalog.registry.entries.insert key entry)[other]? = _
  rw [Std.ExtTreeMap.getElem?_insert, if_neg (by simpa using apart)]

/-- Gives an object a number and enters its class under its name. -/
def add (catalog : Catalog) (object : ClassObject) : Catalog :=
  let classes := catalog.registry.classes.insert object.file.name catalog.objects.size
  { registry := { catalog.registry with classes }, objects := catalog.objects.push object }

def WellKept (catalog : Catalog) : Prop := catalog.registry.WellKept catalog.objects

/-- An archive is opened, or one that nothing is in is closed; a key is registered, or a key with
the class behind it. -/
inductive Step (files : FileTree) (own : Bool) : Catalog → Catalog → Prop
  | opens (catalog : Catalog) (archive : Archive) :
      Step files own catalog (catalog.withArchives (catalog.registry.archives.push archive))
  | closes (catalog : Catalog) (number : Nat)
      (unused : ∀ (key : String) (entry : Entry), catalog.registry.entries[key]? = some entry →
        entry.archive? ≠ some number) :
      Step files own catalog
        (catalog.withArchives (catalog.registry.archives.modify number Archive.close))
  | enters (catalog : Catalog) (key : String) (entry : Entry)
      (free : catalog.registry.entries[key]? = none)
      (stands : entry.StandsFor catalog.registry.archives key) :
      Step files own catalog (catalog.enter key entry)
  | adds (catalog : Catalog) (key : String) (entry : Entry) (bytes : Bytes) (file : ClassFile)
      (pool : Pool) (free : catalog.registry.entries[key]? = none)
      (stands : entry.StandsFor catalog.registry.archives key)
      (behind : entry.read files catalog.registry.archives = .ok bytes)
      (parsed : ClassFile.parse bytes own key = .ok (file, pool))
      (unnamed : catalog.registry.classes[file.name]? = none) :
      Step files own catalog ((catalog.enter key entry).add ⟨file, some pool⟩)

/-- Steps in a row. -/
def Grows (files : FileTree) (own : Bool) : Catalog → Catalog → Prop :=
  Relation.ReflTransGen (Step files own)

variable {files : FileTree} {own : Bool} {before after : Catalog}

/-! What each step keeps. -/

theorem WellKept.enter {catalog : Catalog} (kept : catalog.WellKept) {key : String} {entry : Entry}
    (free : catalog.registry.entries[key]? = none)
    (stands : entry.StandsFor catalog.registry.archives key) :
    (catalog.enter key entry).WellKept := by
  constructor
  · exact kept.named
  · intro name number object entered there
    obtain ⟨source, sourceEntered⟩ := kept.sourced name number object entered there
    exact ⟨source, getElem?_insert_kept free sourceEntered⟩
  · exact kept.apart
  · intro other found entered
    rcases getElem?_insert_iff.mp entered with ⟨same, sameEntry⟩ | ⟨_, old⟩
    · subst same
      subst sameEntry
      exact stands
    · exact kept.stands other found old

theorem add_placed (catalog : Catalog) (object : ClassObject) :
    (catalog.add object).objects[catalog.objects.size]? = some object :=
  Array.getElem?_push_size

/-- What a name leads to is the object that is added, or was there before. -/
theorem WellKept.add_leads {catalog : Catalog} (kept : catalog.WellKept) {object found : ClassObject}
    {name : String} {number : ClassNumber}
    (entered : (catalog.add object).registry.classes[name]? = some number)
    (there : (catalog.add object).objects[number]? = some found) :
    (name = object.file.name ∧ found = object) ∨
      (catalog.registry.classes[name]? = some number ∧
        catalog.objects[number]? = some found) := by
  rcases getElem?_insert_iff.mp entered with ⟨same, last⟩ | ⟨_, old⟩
  · subst last
    exact Or.inl ⟨same.symm, Option.some.inj (there.symm.trans (catalog.add_placed object))⟩
  · obtain ⟨known, knownThere, _⟩ := kept.named name number old
    have one : known = found := Option.some.inj ((getElem?_push_kept knownThere).symm.trans there)
    exact Or.inr ⟨old, one ▸ knownThere⟩

/-- The object that is added is the only one of its number, and no class has its source. -/
theorem WellKept.add {catalog : Catalog} (kept : catalog.WellKept) {object : ClassObject}
    (sourced : ∃ entry, catalog.registry.entries[object.file.source]? = some entry)
    (unused : ∀ (name : String) (number : ClassNumber) (other : ClassObject),
      catalog.registry.classes[name]? = some number → catalog.objects[number]? = some other →
        other.file.source ≠ object.file.source) :
    (catalog.add object).WellKept := by
  constructor
  · intro name number entered
    rcases getElem?_insert_iff.mp entered with ⟨same, last⟩ | ⟨_, old⟩
    · subst last
      exact ⟨object, catalog.add_placed object, same⟩
    · obtain ⟨known, knownThere, named⟩ := kept.named name number old
      exact ⟨known, getElem?_push_kept knownThere, named⟩
  · intro name number found entered there
    rcases kept.add_leads entered there with ⟨_, same⟩ | ⟨old, oldThere⟩
    · exact same ▸ sourced
    · exact kept.sourced name number found old oldThere
  · intro name other number otherNumber found otherFound entered otherEntered there otherThere one
    rcases kept.add_leads entered there with ⟨named, same⟩ | ⟨old, oldThere⟩
    · rcases kept.add_leads otherEntered otherThere with
        ⟨otherNamed, _⟩ | ⟨otherOld, otherOldThere⟩
      · rw [named, otherNamed]
      · subst same
        exact absurd one.symm (unused other otherNumber otherFound otherOld otherOldThere)
    · rcases kept.add_leads otherEntered otherThere with
        ⟨_, otherSame⟩ | ⟨otherOld, otherOldThere⟩
      · subst otherSame
        exact absurd one (unused name number found old oldThere)
      · exact kept.apart name other number otherNumber found otherFound old otherOld oldThere
          otherOldThere one
  · exact kept.stands

theorem Step.wellKept (step : Step files own before after) (kept : before.WellKept) :
    after.WellKept := by
  cases step with
  | opens archive => exact Registry.WellKept.withArchives kept (.push _ archive)
  | closes number unused => exact Registry.WellKept.withArchives kept (.close _ number)
  | enters key entry free stands => exact kept.enter free stands
  | adds key entry bytes file pool free stands behind parsed unnamed =>
      have sourced : file.source = key := (ClassFile.parse_origin parsed).2
      have entered := kept.enter free stands
      refine entered.add ⟨entry, ?_⟩ ?_
      · rw [sourced]
        exact Std.ExtTreeMap.getElem?_insert_self
      · intro name number other named there same
        obtain ⟨source, sourceEntered⟩ := kept.sourced name number other named there
        rw [same, sourced, free] at sourceEntered
        cases sourceEntered

theorem Grows.wellKept (grows : Grows files own before after) (kept : before.WellKept) :
    after.WellKept := by
  induction grows with
  | refl => exact kept
  | tail _ step ih => exact step.wellKept ih

/-- Nothing that was there is gone or replaced. -/
structure Keeps (before after : Catalog) : Prop where
  entries : ∀ (key : String) (entry : Entry), before.registry.entries[key]? = some entry →
    after.registry.entries[key]? = some entry
  classes : ∀ (name : String) (number : ClassNumber), before.registry.classes[name]? = some number →
    after.registry.classes[name]? = some number
  objects : ∀ (number : ClassNumber) (object : ClassObject), before.objects[number]? = some object →
    after.objects[number]? = some object
  archives : KeepsArchives before.registry.archives after.registry.archives

theorem Keeps.refl (catalog : Catalog) : catalog.Keeps catalog :=
  ⟨fun _ _ there => there, fun _ _ there => there, fun _ _ there => there, .refl _⟩

theorem Keeps.trans {first second third : Catalog} (front : first.Keeps second)
    (back : second.Keeps third) : first.Keeps third where
  entries key entry there := back.entries key entry (front.entries key entry there)
  classes name number there := back.classes name number (front.classes name number there)
  objects number object there := back.objects number object (front.objects number object there)
  archives := front.archives.trans back.archives

theorem Step.keeps (step : Step files own before after) : before.Keeps after := by
  cases step with
  | opens archive => exact { Keeps.refl before with archives := .push _ archive }
  | closes number unused => exact { Keeps.refl before with archives := .close _ number }
  | enters key entry free stands =>
      exact { Keeps.refl before with entries := fun _ _ there => getElem?_insert_kept free there }
  | adds key entry bytes file pool free stands behind parsed unnamed =>
      exact {
        entries := fun _ _ there => getElem?_insert_kept free there
        classes := fun _ _ there => getElem?_insert_kept unnamed there
        objects := fun _ _ there => getElem?_push_kept there
        archives := .refl _ }

theorem Grows.keeps (grows : Grows files own before after) : before.Keeps after := by
  induction grows with
  | refl => exact .refl before
  | tail _ step ih => exact ih.trans step.keeps

/-- A key that is registered makes the registry larger. -/
theorem Grows.entries_eq_or_lt (grows : Grows files own before after) :
    after.registry.entries = before.registry.entries ∨
      before.registry.entries.size < after.registry.entries.size := by
  induction grows with
  | refl => exact Or.inl rfl
  | @tail between after _ step ih =>
      have stepped : after.registry.entries = between.registry.entries ∨
          after.registry.entries.size = between.registry.entries.size + 1 := by
        cases step with
        | opens archive => exact Or.inl rfl
        | closes number unused => exact Or.inl rfl
        | enters key entry free stands => exact Or.inr (size_insert_free free)
        | adds key entry bytes file pool free stands behind parsed unnamed =>
            exact Or.inr (size_insert_free free)
      rcases stepped with same | larger
      · rw [same]
        exact ih
      · rcases ih with same | lower
        · rw [same] at larger
          exact Or.inr (by omega)
        · exact Or.inr (by omega)

end Catalog

/-! What is read behind an entry. -/

/-- Only the archive that it is in matters to an entry. -/
theorem Entry.read_congr (files : FileTree) {before after : Array Archive} {entry : Entry}
    (same : ∀ number, entry.archive? = some number → after[number]? = before[number]?) :
    entry.read files after = entry.read files before := by
  cases entry with
  | file path => rfl
  | member path archive index name =>
      simp only [read, readMember, same archive rfl]

namespace Catalog

variable {files : FileTree} {own : Bool} {before after : Catalog}

/-- The archives that entries are in stay as they are, so that what stands behind them does. -/
theorem Step.read (step : Step files own before after) (kept : before.WellKept) {key : String}
    {entry : Entry} (entered : before.registry.entries[key]? = some entry) :
    entry.read files after.registry.archives = entry.read files before.registry.archives := by
  cases step with
  | opens archive =>
      apply Entry.read_congr
      intro number within
      have inside := (kept.stands key entry entered).archive_lt within
      change (before.registry.archives.push archive)[number]? = _
      rw [Array.getElem?_push, if_neg (Nat.ne_of_lt inside)]
  | closes closed unused =>
      apply Entry.read_congr
      intro number within
      have other : closed ≠ number := by
        intro same
        exact unused key entry entered (same ▸ within)
      change (before.registry.archives.modify closed Archive.close)[number]? = _
      rw [Array.getElem?_modify, if_neg other]
  | enters other added free stands => rfl
  | adds other added bytes file pool free stands behind parsed unnamed => rfl

theorem Grows.read (grows : Grows files own before after) (kept : before.WellKept) {key : String}
    {entry : Entry} (entered : before.registry.entries[key]? = some entry) :
    entry.read files after.registry.archives = entry.read files before.registry.archives := by
  induction grows with
  | refl => rfl
  | tail front step ih =>
      have still := (Grows.keeps front).entries key entry entered
      rw [step.read (Grows.wellKept front kept) still, ih]

/-- A class object whose source is registered and reads as bytes that parse into its class, with
the pool that it has. -/
def ReadsBack (files : FileTree) (catalog : Catalog) (number : ClassNumber) : Prop :=
  ∃ object entry bytes pool, catalog.objects[number]? = some object ∧
    catalog.registry.entries[object.file.source]? = some entry ∧
    entry.read files catalog.registry.archives = .ok bytes ∧
    ClassFile.parse bytes object.file.own object.file.source = .ok (object.file, pool) ∧
    object.pool = some pool

theorem Step.readsBack (step : Step files own before after) (kept : before.WellKept)
    {number : ClassNumber} (reads : before.ReadsBack files number) :
    after.ReadsBack files number := by
  obtain ⟨object, entry, bytes, pool, there, entered, behind, parsed⟩ := reads
  refine ⟨object, entry, bytes, pool, step.keeps.objects number object there,
    step.keeps.entries _ entry entered, ?_, parsed⟩
  rw [step.read kept entered, behind]

theorem Keeps.size_le (keeps : before.Keeps after) : before.objects.size ≤ after.objects.size := by
  apply Decidable.byContradiction
  intro fewer
  have inside : after.objects.size < before.objects.size := by omega
  have there := keeps.objects _ _ (Array.getElem?_eq_getElem inside)
  exact Nat.lt_irrefl _ (Array.getElem?_eq_some_iff.mp there).1

/-- A class that was not there before is a new object, which is what its source now reads as. -/
theorem Grows.classes_new (grows : Grows files own before after) (kept : before.WellKept)
    (name : String) (number : ClassNumber)
    (entered : after.registry.classes[name]? = some number) :
    before.registry.classes[name]? = some number ∨
      (before.objects.size ≤ number ∧ after.ReadsBack files number) := by
  induction grows with
  | refl => exact Or.inl entered
  | @tail between after front step ih =>
      have betweenKept : between.WellKept := Grows.wellKept front kept
      have larger : before.objects.size ≤ between.objects.size := (Grows.keeps front).size_le
      have old (there : between.registry.classes[name]? = some number) :
          before.registry.classes[name]? = some number ∨
            (before.objects.size ≤ number ∧ after.ReadsBack files number) := by
        rcases ih there with first | ⟨behind, reads⟩
        · exact Or.inl first
        · exact Or.inr ⟨behind, step.readsBack betweenKept reads⟩
      cases step with
      | opens archive => exact old entered
      | closes closed unused => exact old entered
      | enters key entry free stands => exact old entered
      | adds key entry bytes file pool free stands behind parsed unnamed =>
          rcases getElem?_insert_iff.mp entered with ⟨_, last⟩ | ⟨_, there⟩
          · subst last
            obtain ⟨owned, sourced⟩ := ClassFile.parse_origin parsed
            refine Or.inr ⟨larger, ⟨file, some pool⟩, entry, bytes, pool,
              Array.getElem?_push_size, ?_, behind, ?_⟩
            · rw [sourced]
              exact Std.ExtTreeMap.getElem?_insert_self
            · rw [owned, sourced]
              exact ⟨parsed, rfl⟩
          · exact old there

end Catalog

end Classpath
