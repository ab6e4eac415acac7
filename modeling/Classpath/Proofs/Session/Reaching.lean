import Classpath.Proofs.Registry.Walking
import Classpath.Proofs.Session.Reachable

/-!
Scans of libraries and of one's own inputs. Main statement: in every session, a scan registers the
classes that it reaches, with their keys, and everything else that it reaches just if the input is
one's own.
-/

set_option autoImplicit false

namespace Classpath

open Classpath.Path (joinAll)

namespace Session

/-- After a scan that succeeds: the new classes are marked as told, their sources are new keys, and
no two of them are the same. Of a library those sources are all the new keys, so there are as many
keys as classes. The new keys are names that the scan reaches, and of one's own inputs they are all
of these. Of a directory that is walked every file is visited. -/
theorem scan_registers_reached {session : Session} (reachable : session.Reachable) {number : Nat}
    {registry : Registry} (there : session.registries[number]? = some registry)
    (files : FileTree) (path : Path.Text) (own : Bool) {after : Catalog}
    (ran : Scan.scan files path own ⟨registry, session.objects⟩ = .ok () after) :
    let newKeys := Catalog.newKeys ⟨registry, session.objects⟩ after
    let newClasses := Catalog.newClasses ⟨registry, session.objects⟩ after
    (∀ object ∈ newClasses, object.file.own = own ∧ object.file.source ∈ newKeys) ∧
      (newClasses.map (·.file.source)).Nodup ∧
      (own = false → newKeys.Perm (newClasses.map (·.file.source)) ∧
        newKeys.length = newClasses.length) ∧
      (∀ key ∈ newKeys, files.Reaches registry.walker path key) ∧
      (own = true → ∀ key, files.Reaches registry.walker path key → key ∈ newKeys) ∧
      ∀ children, registry.walker = some FileTree.walk →
        files.find path = .ok (.directory children) → FileTree.isStandardInput path = false →
        ∀ leaf ∈ (Node.directory children).leaves,
          files.Visits registry.walker path (Path.relativeKey path (joinAll path leaf.names))
            (joinAll path leaf.names) := by
  intro newKeys newClasses
  have kept : (⟨registry, session.objects⟩ : Catalog).WellKept :=
    reachable.wellKept number registry there
  obtain ⟨owned, apart, sourced, library, reached, all⟩ := Scan.newClasses_newKeys kept ran
  refine ⟨?_, apart, ?_, reached, all, ?_⟩
  · intro object among
    exact ⟨owned object among, sourced object among⟩
  · intro foreign
    have same := library foreign
    refine ⟨same, ?_⟩
    rw [same.length_eq, List.length_map]
  · intro children walks found notInput leaf among
    exact Scan.visits_leaves kept ran walks found notInput among

/-- A session that has scanned a class file and, as a library, a directory with another one. -/
def shelved (one other : RawClass) : Session :=
  ((((start (FileTree.shelving one other)).step (.newRegistry true)).2.step
    (.scan "A.class" true)).2.step (.scan "lib" false)).2

theorem shelved_reachable (one other : RawClass) : (shelved one other).Reachable :=
  .step _ (.step _ (.step _ (.start _)))

/-- Two classes of different names are both registered. -/
theorem exists_shelved {one other : RawClass} {name otherName : String}
    (resolves : one.Resolvable) (named : one.pool.className? one.thisClass = some name)
    (otherResolves : other.Resolvable)
    (otherNamed : other.pool.className? other.thisClass = some otherName)
    (apart : name ≠ otherName) :
    ∃ (registry : Registry) (object volume : ClassObject),
      (shelved one other).registries[0]? = some registry ∧
      registry.class? (shelved one other).objects name = some object ∧ object.file.name = name ∧
      registry.class? (shelved one other).objects otherName = some volume ∧
      volume.file.name = otherName := by
  obtain ⟨between, after, object, volume, first, second, found, goesBy, _, volumeFound,
    volumeGoesBy, _⟩ :=
      Scan.exists_scan_shelving false resolves named otherResolves otherNamed apart
  let session := ((start (FileTree.shelving one other)).step (.newRegistry true)).2
  have alone : session.step (.scan "A.class" true) = _ := step_scan_of_ok first
  have both : (session.setCatalog between).step (.scan "lib" false) = _ := step_scan_of_ok second
  have ended : shelved one other = (session.setCatalog between).setCatalog after := by
    change ((session.step (.scan "A.class" true)).2.step (.scan "lib" false)).2 = _
    rw [alone, both]
  rw [ended]
  exact ⟨after.registry, object, volume, rfl, found, goesBy, volumeFound, volumeGoesBy⟩

/-- The directory on the shelf, as a library and as one's own: either way its class is registered,
but its other file only if it is one's own. -/
theorem scan_registers_reached_specimen :
    let session := ((start FileTree.shelf).step (.newRegistry true)).2
    session.Reachable ∧ ∃ library mine : Catalog,
      Scan.scan FileTree.shelf "lib" false session.catalog = .ok () library ∧
      Scan.scan FileTree.shelf "lib" true session.catalog = .ok () mine ∧
      FileTree.shelf.Reaches (some FileTree.walk) "lib" "B.class" ∧
      FileTree.shelf.Reaches (some FileTree.walk) "lib" "n" ∧
      "B.class" ∈ Catalog.newKeys session.catalog library ∧
      "n" ∉ Catalog.newKeys session.catalog library ∧
      (Catalog.newKeys session.catalog library).length =
        (Catalog.newClasses session.catalog library).length ∧
      "B.class" ∈ Catalog.newKeys session.catalog mine ∧
      "n" ∈ Catalog.newKeys session.catalog mine := by
  intro session
  have reachable : session.Reachable := .step _ (.start _)
  have there : session.registries[0]? = some session.registry := rfl
  have freeKey (key : String) : session.catalog.registry.entries[key]? = none :=
    Std.ExtTreeMap.getElem?_empty
  have unnamed : session.catalog.registry.classes["B"]? = none := Std.ExtTreeMap.getElem?_empty
  have resolves := RawClass.letter_resolvable 0x42
  have named := RawClass.letter_named.2
  obtain ⟨classReached, otherReached⟩ :
      FileTree.shelf.Reaches (some FileTree.walk) "lib" "B.class" ∧
        FileTree.shelf.Reaches (some FileTree.walk) "lib" "n" :=
    FileTree.reaches_shelving _ _
  obtain ⟨_, _, _, libraryRan⟩ :=
    Scan.scan_shelving_directory false session.catalog resolves named rfl (freeKey _) (freeKey _)
      unnamed
  obtain ⟨_, _, _, ran⟩ :=
    Scan.scan_shelving_directory true session.catalog resolves named rfl (freeKey _) (freeKey _)
      unnamed
  have apart : "B.class" ≠ "n" := by decide
  obtain ⟨_, _, foreign, _⟩ :=
    scan_registers_reached reachable there FileTree.shelf "lib" false libraryRan
  obtain ⟨_, _, _, _, all, _⟩ :=
    scan_registers_reached reachable there FileTree.shelf "lib" true ran
  exact ⟨reachable, _, _, libraryRan, ran, classReached, otherReached,
    (Catalog.mem_newKeys_iff _).mpr ⟨by simp [Catalog.enter, Catalog.add], freeKey _⟩,
    fun new => ((Catalog.mem_newKeys_iff _).mp new).1
      ((Catalog.entries_enter_of_ne apart).trans (freeKey _)), (foreign rfl).2,
    all rfl _ classReached, all rfl _ otherReached⟩

end Session

end Classpath
