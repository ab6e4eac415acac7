import Classpath.Proofs.Naming
import Classpath.Proofs.Registry.Sources
import Classpath.Proofs.Session.Reaching

/-!
Names of sources for the classes of sessions. Main statement: every registered class has one, and no
two of a registry have the same.
-/

set_option autoImplicit false

namespace Classpath

theorem SourcesNamed.sameFiles {before after : Array ClassObject} (named : SourcesNamed before)
    (same : SameFiles before after) : SourcesNamed after := by
  obtain ⟨sized, kept⟩ := same
  intro number later there
  have inside : number < before.size := sized ▸ (Array.getElem?_eq_some_iff.mp there).1
  obtain ⟨found, foundThere, sameFile⟩ := kept number _ (Array.getElem?_eq_getElem inside)
  have one : found = later := Option.some.inj (foundThere.symm.trans there)
  rw [← one, sameFile]
  exact named number _ (Array.getElem?_eq_getElem inside)

namespace Session

theorem Passes.sourcesNamed {session later : Session} {operation : Operation}
    (passes : session.Passes operation later) (named : SourcesNamed session.objects) :
    SourcesNamed later.objects := by
  cases passes with
  | keeps registries objects => exact named.sameFiles objects
  | makes walker registries objects => exact objects ▸ named
  | closes archives keeps => exact named
  | scans path own => exact Scan.NamesSources.scan path session.catalog named
  | reloads => exact Scan.NamesSources.reload session.files session.catalog named

/-- However an object came to be, its source has the suffix of classes. -/
theorem Reachable.sourcesNamed {session : Session} (reachable : session.Reachable) :
    SourcesNamed session.objects := by
  induction reachable with
  | start files =>
      intro number object there
      change (#[] : Array ClassObject)[number]? = some object at there
      simp at there
  | step operation _ ih => exact (step_passes _ operation).sourcesNamed ih
  | refile files _ ih => exact ih

/-- Every class of a registry has a name for its source that no other class of the registry has. In
general a name has one if it has the suffix of classes, whatever the class is renamed to; the source
is in the directory of the class file and goes by the simple name that the class was given; to be
given the name that it has changes nothing; and by names of their own no two have the same. -/
theorem sourceEntryNames_apart :
    (∀ (session : Session) (number : Nat) (registry : Registry), session.Reachable →
      session.registries[number]? = some registry →
      ∀ (name : String) (classNumber : ClassNumber) (object : ClassObject),
        registry.classes[name]? = some classNumber →
        session.objects[classNumber]? = some object →
        ∃ target, Naming.sourceEntryName? object.file.source none = some target ∧
          ∀ (other : String) (otherNumber : ClassNumber) (otherObject : ClassObject),
            registry.classes[other]? = some otherNumber →
            session.objects[otherNumber]? = some otherObject →
            Naming.sourceEntryName? otherObject.file.source none = some target →
              other = name) ∧
    (∀ (entry : String) (renamed : Option String),
      (Naming.sourceEntryName? entry renamed).isSome = true ↔
        Naming.classSuffix <:+ entry.toList) ∧
    (∀ (entry target : String) (renamed : Option String),
      Naming.sourceEntryName? entry renamed = some target →
        Naming.directoryPart target.toList = Naming.directoryPart entry.toList ∧
        ∀ name, renamed = some name → target.toList =
          Naming.directoryPart entry.toList ++ Naming.simplePart name.toList ++
            Naming.sourceSuffix) ∧
    (∀ (entry stem : String), entry.toList = stem.toList ++ Naming.classSuffix →
      Naming.sourceEntryName? entry (some stem) = Naming.sourceEntryName? entry none) ∧
    ∀ (entry other target : String), Naming.sourceEntryName? entry none = some target →
      Naming.sourceEntryName? other none = some target → entry = other := by
  refine ⟨?_, fun _ => Naming.isSome_sourceEntryName?_iff, ?_, ?_,
    fun _ _ _ => Naming.eq_of_sourceEntryName?⟩
  · intro session number registry reachable there name classNumber object entered objectThere
    have isClass := reachable.sourcesNamed classNumber object objectThere
    have suffixed := (Scan.isClassName_iff object.file.source).mp isClass
    obtain ⟨target, named⟩ := Option.isSome_iff_exists.mp
      ((Naming.isSome_sourceEntryName?_iff none).mpr suffixed)
    refine ⟨target, named, ?_⟩
    intro other otherNumber otherObject otherEntered otherThere otherNamed
    exact (reachable.wellKept number registry there).apart other name otherNumber classNumber
      otherObject object otherEntered entered otherThere objectThere
      (Naming.eq_of_sourceEntryName? otherNamed named)
  · intro entry target renamed named
    refine ⟨Naming.directoryPart_sourceEntryName? named, ?_⟩
    rintro name rfl
    rw [(Naming.sourceEntryName?_some_iff.mp named).2, String.toList_ofList]
  · intro entry stem split
    have whole : entry = String.ofList (stem.toList ++ Naming.classSuffix) := by
      rw [← split, String.ofList_toList]
    have same := Naming.sourceEntryName?_stem stem.toList
    rw [String.ofList_toList] at same
    rw [whole, same]

/-- Two classes that were scanned have different names for their sources, and one that is renamed
stays in the directory of its class file. -/
theorem sourceEntryNames_apart_specimen :
    let session := shelved (.letter 0x41) (.letter 0x42)
    session.Reachable ∧
    ∃ (registry : Registry) (object volume : ClassObject) (target other : String),
      session.registries[0]? = some registry ∧
      registry.class? session.objects "A" = some object ∧
      registry.class? session.objects "B" = some volume ∧
      Naming.sourceEntryName? object.file.source none = some target ∧
      Naming.sourceEntryName? volume.file.source none = some other ∧ target ≠ other ∧
      Naming.directoryPart "p/B.java".toList = Naming.directoryPart "p/A.class".toList := by
  intro session
  have reachable : session.Reachable := shelved_reachable _ _
  obtain ⟨registry, object, volume, there, found, _, volumeFound, _⟩ :=
    exists_shelved (RawClass.letter_resolvable 0x41) RawClass.letter_named.1
      (RawClass.letter_resolvable 0x42) RawClass.letter_named.2 (by decide)
  obtain ⟨number, entered, objectThere⟩ :=
    (Catalog.class?_eq_some_iff ⟨registry, session.objects⟩ _ _).mp found
  obtain ⟨otherNumber, otherEntered, volumeThere⟩ :=
    (Catalog.class?_eq_some_iff ⟨registry, session.objects⟩ _ _).mp volumeFound
  obtain ⟨classes, _, renamed, _, _⟩ := sourceEntryNames_apart
  have named := classes session 0 registry reachable there
  obtain ⟨target, ofObject, only⟩ := named "A" number object entered objectThere
  obtain ⟨other, ofVolume, _⟩ := named "B" otherNumber volume otherEntered volumeThere
  have apart : target ≠ other := by
    rintro rfl
    exact absurd (only "B" otherNumber volume otherEntered volumeThere ofVolume) (by decide)
  have moved : Naming.sourceEntryName? "p/A.class" (some "q/B") = some "p/B.java" := by decide
  exact ⟨reachable, registry, object, volume, target, other, there, found, volumeFound, ofObject,
    ofVolume, apart, (renamed "p/A.class" "p/B.java" (some "q/B") moved).1⟩

end Session

end Classpath
