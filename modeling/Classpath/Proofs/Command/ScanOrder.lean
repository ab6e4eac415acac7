import Classpath.Command.Settings
import Classpath.Proofs.Registry.Walking

/-!
The order of inputs. Main statement: whether several inputs can be scanned, and what a registry then
has of keys, contents and classes, does not depend on the order in which they are scanned.
-/

set_option autoImplicit false

namespace Classpath

/-- The keys of a map are told by which of them lead somewhere. -/
theorem keys_eq_of_isSome {α β : Type} (first : Std.ExtTreeMap String α)
    (second : Std.ExtTreeMap String β)
    (same : ∀ key : String, first[key]?.isSome = second[key]?.isSome) :
    first.keys = second.keys := by
  have members (key : String) : key ∈ first.keys ↔ key ∈ second.keys := by
    rw [Std.ExtTreeMap.mem_keys, Std.ExtTreeMap.mem_keys, Std.ExtTreeMap.mem_iff_isSome_getElem?,
      Std.ExtTreeMap.mem_iff_isSome_getElem?, same]
  have rearranged : first.keys.Perm second.keys :=
    (List.perm_ext_iff_of_nodup Std.ExtTreeMap.nodup_keys Std.ExtTreeMap.nodup_keys).mpr members
  apply rearranged.eq_of_pairwise _ Std.ExtTreeMap.ordered_keys Std.ExtTreeMap.ordered_keys
  intro a b _ _ less greater
  have turned : compare b a = .gt := Std.OrientedCmp.gt_iff_lt.mpr less
  rw [turned] at greater
  cases greater

namespace Catalog

variable {files : FileTree} {first second : Catalog}

/-- What is read behind a key is what is seen there. -/
theorem readResource_eq (catalog : Catalog) (key : String) :
    catalog.registry.readResource files key =
      match (catalog.view files).contents key with
      | none => .ok none
      | some contents => some <$> contents := by
  unfold Registry.readResource
  dsimp only [view]
  cases catalog.registry.entries[key]? with
  | none => rfl
  | some entry => rfl

theorem readResource_eq_of_view (same : first.view files = second.view files) (key : String) :
    first.registry.readResource files key = second.registry.readResource files key := by
  rw [readResource_eq, readResource_eq, same]

theorem resourceKeys_eq_of_view (same : first.view files = second.view files) :
    first.registry.resourceKeys = second.registry.resourceKeys := by
  apply keys_eq_of_isSome
  intro key
  have contents := congrArg Option.isSome (congrFun (congrArg View.contents same) key)
  simpa only [view, Option.isSome_map] using contents

theorem class?_eq_of_view (same : first.view files = second.view files) (name : String) :
    first.class? name = second.class? name :=
  congrFun (congrArg View.classes same) name

theorem classNames_eq_of_view (firstKept : first.WellKept) (secondKept : second.WellKept)
    (same : first.view files = second.view files) :
    first.registry.classNames = second.registry.classNames := by
  apply keys_eq_of_isSome
  intro name
  have none_iff : first.registry.classes[name]? = none ↔ second.registry.classes[name]? = none := by
    rw [← firstKept.class?_eq_none_iff, ← secondKept.class?_eq_none_iff, class?_eq_of_view same]
  rw [Bool.eq_iff_iff, ← Option.ne_none_iff_isSome, ← Option.ne_none_iff_isSome]
  exact not_congr none_iff

end Catalog

namespace Command.Settings

variable {files : FileTree}

theorem wellKept_scanAll (inputs : List (Path.Text × Bool)) {catalog after : Catalog}
    (kept : catalog.WellKept) (ran : scanAll files inputs catalog = .ok () after) :
    after.WellKept := by
  induction inputs generalizing catalog with
  | nil =>
      cases ran
      exact kept
  | cons input rest ih =>
      change EStateM.bind (Scan.scan files input.1 input.2) _ catalog = _ at ran
      unfold EStateM.bind at ran
      cases scanned : Scan.scan files input.1 input.2 catalog with
      | error error between =>
          rw [scanned] at ran
          cases ran
      | ok value between =>
          rw [scanned] at ran
          have grown := Scan.grows_of_ok (Scan.growing_scan files input.1 input.2 catalog kept)
            scanned
          exact ih (Catalog.Grows.wellKept grown kept) ran

theorem contributes_scanAll (walker : Option Walker) (inputs : List (Path.Text × Bool)) :
    Scan.Contributes files walker (scanAll files inputs)
      (Addition.together (fun input => Addition.ofInput? files walker input.1 input.2) inputs) := by
  induction inputs with
  | nil => exact fun _ _ _ => rfl
  | cons input rest ih =>
      exact Scan.contributes_bind (Scan.growing_scan files input.1 input.2)
        (Scan.contributes_scan files walker input.1 input.2) ih

/-- A catalog of a fresh registry. -/
def fresh (walker : Option Walker) : Catalog := ⟨Registry.empty walker, #[]⟩

theorem wellKept_fresh (walker : Option Walker) : (fresh walker).WellKept :=
  Registry.WellKept.empty #[] walker

theorem seen_scanAll_perm (files : FileTree) (walker : Option Walker)
    {inputs order : List (Path.Text × Bool)} (rearranged : order.Perm inputs) :
    Scan.seen files (scanAll files order (fresh walker)) =
      Scan.seen files (scanAll files inputs (fresh walker)) := by
  rw [contributes_scanAll walker order (fresh walker) (wellKept_fresh walker) rfl,
    contributes_scanAll walker inputs (fresh walker) (wellKept_fresh walker) rfl]
  exact View.gain_together_perm _ rearranged _

/-- Inputs that are scanned into a fresh registry, up to the first that fails, can all be scanned in
one order exactly if they can in another. Both ways then lead to the same keys with the same bytes
behind them, and to the same names of classes with the same classes behind them. -/
theorem scanAll_perm (files : FileTree) (walker : Option Walker)
    (inputs order : List (Path.Text × Bool)) (rearranged : order.Perm inputs) :
    ((∃ after, scanAll files order (fresh walker) = .ok () after) ↔
      ∃ after, scanAll files inputs (fresh walker) = .ok () after) ∧
    ∀ after other, scanAll files inputs (fresh walker) = .ok () after →
      scanAll files order (fresh walker) = .ok () other →
        other.registry.resourceKeys = after.registry.resourceKeys ∧
        (∀ key, other.registry.readResource files key = after.registry.readResource files key) ∧
        other.registry.classNames = after.registry.classNames ∧
        ∀ name, other.class? name = after.class? name := by
  have same := seen_scanAll_perm files walker rearranged
  have succeeds_iff (list : List (Path.Text × Bool)) :
      (∃ after, scanAll files list (fresh walker) = .ok () after) ↔
        (Scan.seen files (scanAll files list (fresh walker))).isSome = true := by
    cases scanAll files list (fresh walker) with
    | ok value after => simp [Scan.seen]
    | error error after => simp [Scan.seen]
  constructor
  · rw [succeeds_iff, succeeds_iff, same]
  · intro after other ran otherRan
    have afterKept := wellKept_scanAll inputs (wellKept_fresh walker) ran
    have otherKept := wellKept_scanAll order (wellKept_fresh walker) otherRan
    rw [ran, otherRan] at same
    have views : other.view files = after.view files := Option.some.inj same
    exact ⟨Catalog.resourceKeys_eq_of_view views, Catalog.readResource_eq_of_view views,
      Catalog.classNames_eq_of_view otherKept afterKept views, Catalog.class?_eq_of_view views⟩

/-- A class file and a directory with another one, in both orders. -/
theorem scanAll_perm_specimen : ∃ (after other : Catalog) (object volume : ClassObject),
    scanAll FileTree.shelf [("A.class", true), ("lib", false)] (fresh (some FileTree.walk)) =
      .ok () after ∧
    scanAll FileTree.shelf [("lib", false), ("A.class", true)] (fresh (some FileTree.walk)) =
      .ok () other ∧
    after.class? "A" = some object ∧ other.class? "A" = some object ∧
    after.class? "B" = some volume ∧ other.class? "B" = some volume ∧
    other.registry.resourceKeys = after.registry.resourceKeys := by
  obtain ⟨_, after, object, volume, first, second, found, _, _, volumeFound, _, _⟩ :=
    Scan.exists_scan_shelf false
  have ran : scanAll FileTree.shelf [("A.class", true), ("lib", false)]
      (fresh (some FileTree.walk)) = .ok () after :=
    (Scan.bind_of_ok first).trans (Scan.bind_of_ok second)
  obtain ⟨succeeds, agree⟩ := scanAll_perm FileTree.shelf (some FileTree.walk)
    [("A.class", true), ("lib", false)] [("lib", false), ("A.class", true)] (List.Perm.swap _ _ _)
  obtain ⟨other, otherRan⟩ := succeeds.mpr ⟨after, ran⟩
  obtain ⟨keys, _, _, same⟩ := agree after other ran otherRan
  exact ⟨after, other, object, volume, ran, otherRan, found, (same "A").trans found, volumeFound,
    (same "B").trans volumeFound, keys⟩

end Command.Settings

end Classpath
