import Mathlib.Data.List.Basic
import Classpath.Proofs.Files.Leaves

/-!
What the components of a path tell. Main statements: paths of the same components lead to the same
node, and the key of a path below another ends in the name that the path ends in, unless the two
have the same components.
-/

set_option autoImplicit false

namespace Classpath

namespace Path

variable {path other : Text}

/-- The components behind the one that a path may begin with. -/
def steps (path : Text) : List Component := (pieces path).filterMap component?

theorem component?_eq_some {piece : Text} {component : Component}
    (stands : component? piece = some component) :
    component.text = piece ∧ component ≠ .root ∧ component ≠ .current := by
  unfold component? at stands
  split at stands
  · cases stands
  · split at stands
    · rename_i up
      cases stands
      have dots : piece.bytes = [dot, dot] := by simpa [isParent] using up
      exact ⟨congrArg Text.mk dots.symm, by simp, by simp⟩
    · cases stands
      exact ⟨rfl, by simp, by simp⟩

theorem component_of_steps {component : Component} (among : component ∈ steps path) :
    component ≠ .root ∧ component ≠ .current := by
  obtain ⟨piece, _, stands⟩ := List.mem_filterMap.mp among
  exact (component?_eq_some stands).2

theorem components_eq (path : Text) :
    components path = .root :: steps path ∧ isAbsolute path = true ∨
      (components path = .current :: steps path ∨ components path = steps path) ∧
        isAbsolute path = false := by
  unfold components
  by_cases absolute : isAbsolute path = true
  · exact Or.inl ⟨by rw [if_pos absolute]; rfl, absolute⟩
  · refine Or.inr ⟨?_, Bool.not_eq_true _ ▸ absolute⟩
    rw [if_neg absolute]
    split
    · exact Or.inl rfl
    · exact Or.inr rfl

theorem root_mem_components_iff : Component.root ∈ components path ↔ isAbsolute path = true := by
  have below : Component.root ∉ steps path := fun among => (component_of_steps among).1 rfl
  rcases components_eq path with ⟨whole, absolute⟩ | ⟨whole | whole, relative⟩
  · simp [whole, absolute]
  · simp [whole, relative, below]
  · simp [whole, relative, below]

theorem filter_components (path : Text) :
    (components path).filter (fun component => component ≠ .root ∧ component ≠ .current) =
      steps path := by
  have all : (steps path).filter (fun component => component ≠ .root ∧ component ≠ .current) =
      steps path := by
    apply List.filter_eq_self.mpr
    intro component among
    exact decide_eq_true (component_of_steps among)
  rcases components_eq path with ⟨whole, _⟩ | ⟨whole | whole, _⟩
  · rw [whole, List.filter_cons_of_neg (by simp), all]
  · rw [whole, List.filter_cons_of_neg (by simp), all]
  · rw [whole, all]

theorem isAbsolute_of_components (same : components path = components other) :
    isAbsolute path = isAbsolute other := by
  rw [Bool.eq_iff_iff, ← root_mem_components_iff, ← root_mem_components_iff, same]

theorem steps_of_components (same : components path = components other) :
    steps path = steps other := by
  rw [← filter_components path, ← filter_components other, same]

/-- Of what is behind a start, the last component is that of the whole. -/
theorem getLast?_relativeComponents {start whole : List Component} (apart : whole ≠ start) :
    (relativeComponents start whole).getLast? = whole.getLast? := by
  unfold relativeComponents
  cases below : start.isPrefixOf? whole with
  | none => rfl
  | some rest =>
      have split := List.isPrefixOf?_eq_some_iff_append_eq.mp below
      rw [Option.getD_some, ← split, List.getLast?_append]
      cases rest with
      | nil => exact absurd (split.symm.trans (List.append_nil start)) apart
      | cons first others => simp [List.getLast?_cons]

/-- The key of a path below a root ends in the name of its file. -/
theorem getLast?_relativeKey {root name : Text} (named : fileName? path = some name)
    (apart : components path ≠ components root) :
    ((relativeComponents (components root) (components path)).map (·.text.shown)).getLast? =
      some name.shown := by
  have ends : (components path).getLast? = some (.normal name) := by
    unfold fileName? at named
    split at named
    · rename_i last found
      cases named
      exact found
    · cases named
  rw [List.getLast?_map, getLast?_relativeComponents apart, ends]
  rfl

end Path

/-- Empty pieces and dots between slashes lead nowhere else. -/
theorem Node.follow_steps (above : List Node) (node : Node) (pieces : List Path.Text)
    {reached : Node}
    (reaches : follow above node pieces = .ok reached) :
    follow above node ((pieces.filterMap Path.component?).map Path.Component.text) =
      .ok reached := by
  -- Pieces that stand for no component are those that lead nowhere else.
  fun_induction follow above node pieces with
  | case1 above node => exact reaches
  | case2 above content piece pieces => cases reaches
  | case3 above children piece pieces skipped ih =>
      have nothing : Path.component? piece = none := if_pos skipped
      rw [List.filterMap_cons_none nothing]
      exact ih reaches
  | case4 children piece pieces other up ih =>
      have stands : Path.component? piece = some .parent := by
        rw [Path.component?, if_neg other, if_pos up]
      simpa [List.filterMap_cons_some stands, Path.Component.text, follow, Path.isIdle,
        Path.isParent] using ih reaches
  | case5 children piece pieces other up above ancestors ih =>
      have stands : Path.component? piece = some .parent := by
        rw [Path.component?, if_neg other, if_pos up]
      simpa [List.filterMap_cons_some stands, Path.Component.text, follow, Path.isIdle,
        Path.isParent] using ih reaches
  | case6 above children piece pieces other down long => cases reaches
  | case7 above children piece pieces other down small child found ih =>
      have named : Path.component? piece = some (.normal piece) := by
        rw [Path.component?, if_neg other, if_neg down]
      simpa [List.filterMap_cons_some named, Path.Component.text, follow, other, down, small, found]
        using ih reaches
  | case8 above children piece pieces other down small absent => cases reaches

/-- Paths of the same components that lead anywhere lead to the same node. -/
theorem FileTree.find_unique {files : FileTree} {path other : Path.Text} {node otherNode : Node}
    (same : Path.components path = Path.components other) (found : files.find path = .ok node)
    (otherFound : files.find other = .ok otherNode) : node = otherNode := by
  obtain ⟨_, _, _, above, here, starts, leads⟩ := (find_eq_ok_iff path).mp found
  obtain ⟨_, _, _, otherAbove, otherHere, otherStarts, otherLeads⟩ :=
    (find_eq_ok_iff other).mp otherFound
  rw [start?, Path.isAbsolute_of_components same] at starts
  rw [start?, starts] at otherStarts
  cases otherStarts
  have reaches := Node.follow_steps above here _ leads
  have otherReaches := Node.follow_steps above here _ otherLeads
  have steps : (Path.pieces path).filterMap Path.component? =
      (Path.pieces other).filterMap Path.component? := Path.steps_of_components same
  rw [steps, otherReaches] at reaches
  exact (Except.ok.inj reaches).symm

end Classpath
