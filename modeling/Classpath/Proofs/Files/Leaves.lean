import Mathlib.Data.List.Basic
import Classpath.Files.Walk
import Classpath.Proofs.Lookup
import Classpath.Proofs.Files.Paths

/-!
The files below a directory, and the names that lead to them. Main statement: the names joined to a
path of the directory lead to the file.
-/

set_option autoImplicit false

namespace Classpath

open Classpath.Path (IsName joinAll)

/-- A file and the names that lead to it. -/
structure Leaf where
  names : List Path.Text
  content : Bytes

/-- The file seen from one directory further up. -/
def Leaf.below (name : Path.Text) (leaf : Leaf) : Leaf := { leaf with names := name :: leaf.names }

namespace Node

mutual

/-- The files at or below a node. -/
def leaves : Node → List Leaf
  | .file content => [⟨[], content⟩]
  | .directory children => leavesOfChildren children

/-- The files at or below each child. -/
def leavesOfChildren : List (Path.Text × Node) → List Leaf
  | [] => []
  | (name, child) :: rest => (leaves child).map (Leaf.below name) ++ leavesOfChildren rest

end

mutual

/-- Everywhere at or below a node, children have names that they can have, and distinct ones. -/
def IsTree : Node → Prop
  | .file _ => True
  | .directory children => (children.map Prod.fst).Nodup ∧ AreTrees children

/-- The same of the children of a directory. -/
def AreTrees : List (Path.Text × Node) → Prop
  | [] => True
  | (name, child) :: rest => IsName name ∧ IsTree child ∧ AreTrees rest

end

mutual

theorem isName_of_leaf (node : Node) (tree : node.IsTree) (leaf : Leaf)
    (among : leaf ∈ node.leaves) : ∀ name ∈ leaf.names, IsName name := by
  cases node with
  | file content =>
      simp only [leaves, List.mem_singleton] at among
      simp [among]
  | directory children =>
      simp only [IsTree] at tree
      exact isName_of_leafOfChildren children tree.2 leaf (by simpa only [leaves] using among)

theorem isName_of_leafOfChildren (children : List (Path.Text × Node)) (trees : AreTrees children)
    (leaf : Leaf) (among : leaf ∈ leavesOfChildren children) :
    ∀ name ∈ leaf.names, IsName name := by
  cases children with
  | nil => simp [leavesOfChildren] at among
  | cons first rest =>
      obtain ⟨name, child⟩ := first
      simp only [AreTrees] at trees
      simp only [leavesOfChildren, List.mem_append, List.mem_map] at among
      rcases among with ⟨inner, innerAmong, rfl⟩ | later
      · have inside := isName_of_leaf child trees.2.1 inner innerAmong
        simpa [Leaf.below, trees.1] using inside
      · exact isName_of_leafOfChildren rest trees.2.2 leaf later

end

/-! Following paths. -/

/-- What is behind some pieces is followed from where these lead. -/
theorem follow_append (above : List Node) (node : Node) (front : List Path.Text) {reached : Node}
    (reaches : follow above node front = .ok reached) :
    ∃ ancestors, ∀ back, follow above node (front ++ back) = follow ancestors reached back := by
  fun_induction follow above node front with
  | case1 above node =>
      simp only [Except.ok.injEq] at reaches
      exact ⟨above, fun back => by rw [reaches, List.nil_append]⟩
  | case2 above content piece pieces => cases reaches
  | case3 above children piece pieces skipped ih =>
      obtain ⟨ancestors, further⟩ := ih reaches
      exact ⟨ancestors, fun back => by simp [follow, skipped, further]⟩
  | case4 children piece pieces other up ih =>
      obtain ⟨ancestors, further⟩ := ih reaches
      exact ⟨ancestors, fun back => by simp [follow, other, up, further]⟩
  | case5 children piece pieces other up above ancestors ih =>
      obtain ⟨ancestors, further⟩ := ih reaches
      exact ⟨ancestors, fun back => by simp [follow, other, up, further]⟩
  | case6 above children piece pieces other down long => cases reaches
  | case7 above children piece pieces other down small child found ih =>
      obtain ⟨ancestors, further⟩ := ih reaches
      exact ⟨ancestors, fun back => by simp [follow, other, down, small, found, further]⟩
  | case8 above children piece pieces other down small absent => cases reaches

/-- Nothing behind a last slash leads no further. -/
theorem follow_append_empty (above : List Node) (node : Node) (front : List Path.Text)
    {reached : Node}
    (reaches : follow above node (front ++ [⟨[]⟩]) = .ok reached) :
    follow above node front = .ok reached := by
  fun_induction follow above node front with
  | case1 above node =>
      cases node with
      | file content => cases reaches
      | directory children => simpa [follow, Path.isIdle] using reaches
  | case2 above content piece pieces => cases reaches
  | case3 above children piece pieces skipped ih =>
      exact ih (by simpa [follow, skipped] using reaches)
  | case4 children piece pieces other up ih =>
      exact ih (by simpa [follow, other, up] using reaches)
  | case5 children piece pieces other up above ancestors ih =>
      exact ih (by simpa [follow, other, up] using reaches)
  | case6 above children piece pieces other down long =>
      simp [follow, other, down, long] at reaches
  | case7 above children piece pieces other down small child found ih =>
      exact ih (by simpa [follow, other, down, small, found] using reaches)
  | case8 above children piece pieces other down small absent =>
      simp [follow, other, down, small, absent] at reaches

theorem follow_child {above : List Node} {children : List (Path.Text × Node)} {name : Path.Text}
    {child : Node} (named : IsName name) (found : children.lookup name = some child)
    (names : List Path.Text) :
    follow above (.directory children) (name :: names) =
      follow (.directory children :: above) child names := by
  have small := Nat.not_lt_of_le named.small
  simp [follow, Path.isIdle, Path.isParent, named.present, named.notCurrent, named.notParent, small,
    found]

mutual

/-- The names of a file lead to it. -/
theorem follow_leaf (node : Node) (tree : node.IsTree) (leaf : Leaf) (among : leaf ∈ node.leaves)
    (above : List Node) : follow above node leaf.names = .ok (.file leaf.content) := by
  cases node with
  | file content =>
      simp only [leaves, List.mem_singleton] at among
      simp [among, follow]
  | directory children =>
      simp only [IsTree] at tree
      simp only [leaves] at among
      obtain ⟨name, child, inner, rfl, named, found, leads⟩ :=
        follow_leafOfChildren children tree.1 tree.2 leaf among
      rw [Leaf.below, follow_child named found]
      exact leads _

theorem follow_leafOfChildren (children : List (Path.Text × Node))
    (distinct : (children.map Prod.fst).Nodup) (trees : AreTrees children) (leaf : Leaf)
    (among : leaf ∈ leavesOfChildren children) :
    ∃ (name : Path.Text) (child : Node) (inner : Leaf), leaf = inner.below name ∧ IsName name ∧
      children.lookup name = some child ∧
      ∀ above, follow above child inner.names = .ok (.file inner.content) := by
  cases children with
  | nil => simp [leavesOfChildren] at among
  | cons first rest =>
      obtain ⟨name, child⟩ := first
      simp only [AreTrees] at trees
      simp only [leavesOfChildren, List.mem_append, List.mem_map] at among
      obtain ⟨absent, restDistinct⟩ := List.nodup_cons.mp distinct
      rcases among with ⟨inner, innerAmong, rfl⟩ | later
      · exact ⟨name, child, inner, rfl, trees.1, by simp,
          fun above => follow_leaf child trees.2.1 inner innerAmong above⟩
      · obtain ⟨other, found, inner, same, named, lookedUp, leads⟩ :=
          follow_leafOfChildren rest restDistinct trees.2.2 leaf later
        have apart : other ≠ name := by
          intro one
          apply absent
          rw [← one]
          exact List.mem_map.mpr ⟨(other, found), mem_of_lookup lookedUp, rfl⟩
        exact ⟨other, found, inner, same, named,
          (lookup_cons_of_ne apart child rest).trans lookedUp, leads⟩

end

/-- What is below a directory has a name there. -/
theorem names_ne_nil {children : List (Path.Text × Node)} {leaf : Leaf}
    (among : leaf ∈ (directory children).leaves) : leaf.names ≠ [] := by
  simp only [leaves] at among
  induction children with
  | nil => simp [leavesOfChildren] at among
  | cons first rest ih =>
      simp only [leavesOfChildren, List.mem_append, List.mem_map] at among
      rcases among with ⟨inner, _, rfl⟩ | later
      · simp [Leaf.below]
      · exact ih later

end Node

namespace FileTree

variable {files : FileTree} {root : Path.Text} {node : Node}

/-- Where a path starts: the nodes above, and the one that is followed from. -/
def start? (files : FileTree) (path : Path.Text) : Option (List Node × Node) :=
  if Path.isAbsolute path then some ([], files.root)
  else Node.descend? [] files.root files.workingDirectory

theorem find_eq_ok_iff (path : Path.Text) :
    files.find path = .ok node ↔
      path.bytes ≠ [] ∧ 0 ∉ path.bytes ∧ path.bytes.length ≤ maxPathSize ∧
        ∃ above here, files.start? path = some (above, here) ∧
          Node.follow above here (Path.pieces path) = .ok node := by
  unfold find start?
  by_cases empty : path.bytes = []
  · simp [empty]
  by_cases nul : path.bytes.contains 0 = true
  · simp_all
  have noNul : 0 ∉ path.bytes := by simpa using nul
  by_cases long : maxPathSize < path.bytes.length
  · simp [empty, noNul, long, Nat.not_le_of_lt long]
  have small : path.bytes.length ≤ maxPathSize := by omega
  by_cases absolute : Path.isAbsolute path = true
  · simp [empty, noNul, long, small, absolute]
  · cases Node.descend? [] files.root files.workingDirectory with
    | none => simp [empty, noNul, long, small, absolute]
    | some started =>
        obtain ⟨above, here⟩ := started
        simp [empty, noNul, long, small, absolute, and_assoc]

/-- The name of what stands at the top leads to it from there. -/
theorem find_child {children : List (Path.Text × Node)} {name : Path.Text}
    (named : IsName name) (found : children.lookup name = some node) :
    (⟨.directory children, []⟩ : FileTree).find name = .ok node := by
  have size := named.small
  have fits : name.bytes.length ≤ maxPathSize := by
    simp only [Node.maxNameSize, maxPathSize] at size ⊢
    omega
  apply (find_eq_ok_iff name).mpr
  refine ⟨named.present, named.noNul, fits, [], .directory children, ?_, ?_⟩
  · simp [start?, Path.isAbsolute_plain named.plain, Node.descend?]
  · rw [Path.pieces_plain named.plain, Node.follow_child named found]
    rfl

/-- A path that a walk lists leads to the file that it was listed for, unless it is too long. -/
theorem find_joinAll (found : files.find root = .ok node) (tree : node.IsTree) {leaf : Leaf}
    (among : leaf ∈ node.leaves) (behind : leaf.names ≠ [])
    (fits : (joinAll root leaf.names).bytes.length ≤ maxPathSize) :
    files.find (joinAll root leaf.names) = .ok (.file leaf.content) := by
  obtain ⟨present, noNul, _, above, here, starts, reaches⟩ := (find_eq_ok_iff root).mp found
  have named := node.isName_of_leaf tree leaf among
  have startsAlike : files.start? (joinAll root leaf.names) = some (above, here) := by
    rw [start?, Path.isAbsolute_joinAll present named]
    exact starts
  have reachesRoot : Node.follow above here (Path.trunk root) = .ok node := by
    rcases Path.pieces_eq_trunk root with same | more
    · rw [← same]
      exact reaches
    · rw [more] at reaches
      exact Node.follow_append_empty above here _ reaches
  obtain ⟨ancestors, further⟩ := Node.follow_append above here (Path.trunk root) reachesRoot
  have leads : Node.follow above here (Path.pieces (joinAll root leaf.names)) =
      .ok (.file leaf.content) := by
    rw [Path.pieces_joinAll present named behind, further]
    exact Node.follow_leaf node tree leaf among ancestors
  apply (find_eq_ok_iff _).mpr
  exact ⟨Path.joinAll_ne_empty present named, Path.nul_joinAll present named noNul, fits,
    above, here, startsAlike, leads⟩

theorem read_joinAll (found : files.find root = .ok node) (tree : node.IsTree) {leaf : Leaf}
    (among : leaf ∈ node.leaves) (behind : leaf.names ≠ [])
    (fits : (joinAll root leaf.names).bytes.length ≤ maxPathSize) :
    files.read (joinAll root leaf.names) = .ok leaf.content := by
  rw [read, find_joinAll found tree among behind fits]

end FileTree

end Classpath
