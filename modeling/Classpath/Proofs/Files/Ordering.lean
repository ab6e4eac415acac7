import Classpath.Proofs.Files.Leaves
import Classpath.Proofs.Text.ByteOrder

/-!
The order of a walk. The files below a directory are those that the names lead to, and a walk lists
them in the order of their names, the first names first, so that a directory comes with all that is
below it before whatever is named after it.

Main statements: `Node.filePaths_entriesAt`, `Node.inOrder_pairwise` and `Node.mem_leaves_iff`.
-/

set_option autoImplicit false

namespace Classpath

open Classpath.Path (IsName joinAll)

namespace Node

/-- What is at the end of some names, going down only. -/
def at? : Node → List Path.Text → Option Node
  | node, [] => some node
  | node, name :: names => ((children (some node)).lookup name).bind (at? · names)

mutual

/-- The files at or below a node in the order of a walk. -/
def inOrder : Node → List Leaf
  | .file content => [⟨[], content⟩]
  | .directory children => (byName (inOrderOfChildren children)).flatMap (·.2)

/-- The same of each child, under the child's name. -/
def inOrderOfChildren : List (Path.Text × Node) → List (Path.Text × List Leaf)
  | [] => []
  | (name, child) :: rest => (name, (inOrder child).map (Leaf.below name)) :: inOrderOfChildren rest

end

section ByName

variable {α β : Type}

/-- Whatever hangs on the names is ordered with them. -/
theorem byName_map (work : α → β) (named : List (Path.Text × α)) :
    byName (named.map fun pair => (pair.1, work pair.2)) =
      (byName named).map fun pair => (pair.1, work pair.2) := by
  unfold byName
  rw [List.map_mergeSort]
  intro one _ other _
  rfl

theorem mem_byName {named : List (Path.Text × α)} {pair : Path.Text × α} :
    pair ∈ byName named ↔ pair ∈ named := (List.mergeSort_perm _ _).mem_iff

/-- Distinct names ascend. -/
theorem byName_pairwise {named : List (Path.Text × α)} (distinct : (named.map Prod.fst).Nodup) :
    (byName named).Pairwise fun one other => one.1.bytes < other.1.bytes := by
  apply Text.pairwise_lt_mergeSort
  rw [List.Nodup, List.pairwise_map] at distinct ⊢
  exact distinct.imp fun apart same => apart (congrArg Path.Text.mk same)

end ByName

theorem filePaths_flatMap (named : List (Path.Text × List (Path.Text × Node))) :
    FileTree.filePaths (named.flatMap (·.2)) =
      named.flatMap fun pair => FileTree.filePaths pair.2 := by
  rw [FileTree.filePaths, List.filter_flatMap, List.map_flatMap]
  rfl

mutual

/-- The files that a visit comes by are those below the node, in their order. -/
theorem filePaths_entriesAt (path : Path.Text) (node : Node) :
    FileTree.filePaths (entriesAt path node) =
      node.inOrder.map fun leaf => joinAll path leaf.names := by
  cases node with
  | file content => simp [FileTree.filePaths, entriesAt, isFile, inOrder, joinAll]
  | directory children =>
      -- The directory itself is no file, and its children's are put in one order either way.
      have behind : FileTree.filePaths (entriesAt path (directory children)) =
          FileTree.filePaths ((byName (entriesOfChildren path children)).flatMap (·.2)) := by
        simp [FileTree.filePaths, entriesAt, isFile]
      have sorted := byName_map FileTree.filePaths (entriesOfChildren path children)
      rw [filePaths_entriesOfChildren path children, byName_map] at sorted
      rw [behind, filePaths_flatMap, inOrder, List.map_flatMap]
      have whole := congrArg (List.flatMap Prod.snd) sorted
      rw [List.flatMap_map, List.flatMap_map] at whole
      exact whole.symm

theorem filePaths_entriesOfChildren (path : Path.Text) (children : List (Path.Text × Node)) :
    (entriesOfChildren path children).map (fun pair => (pair.1, FileTree.filePaths pair.2)) =
      (inOrderOfChildren children).map fun pair =>
        (pair.1, pair.2.map fun leaf => joinAll path leaf.names) := by
  cases children with
  | nil => simp [entriesOfChildren, inOrderOfChildren]
  | cons first rest =>
      obtain ⟨name, child⟩ := first
      rw [entriesOfChildren, inOrderOfChildren, List.map_cons, List.map_cons,
        filePaths_entriesAt (Path.join path name) child, filePaths_entriesOfChildren path rest,
        List.map_map]
      rfl

end

mutual

theorem inOrder_perm (node : Node) : node.inOrder.Perm node.leaves := by
  cases node with
  | file content => simp [inOrder, leaves]
  | directory children =>
      simp only [inOrder, leaves]
      exact ((List.mergeSort_perm _ _).flatMap_right _).trans (inOrderOfChildren_perm children)

theorem inOrderOfChildren_perm (children : List (Path.Text × Node)) :
    ((inOrderOfChildren children).flatMap (·.2)).Perm (leavesOfChildren children) := by
  cases children with
  | nil => simp [inOrderOfChildren, leavesOfChildren]
  | cons first rest =>
      obtain ⟨name, child⟩ := first
      simp only [inOrderOfChildren, leavesOfChildren, List.flatMap_cons]
      exact ((inOrder_perm child).map _).append (inOrderOfChildren_perm rest)

end

theorem map_fst_inOrderOfChildren (children : List (Path.Text × Node)) :
    (inOrderOfChildren children).map Prod.fst = children.map Prod.fst := by
  induction children with
  | nil => rfl
  | cons first rest ih =>
      rw [inOrderOfChildren, List.map_cons, List.map_cons, ih]

/-- What is listed under a child's name begins with that name. -/
theorem exists_below_of_mem {children : List (Path.Text × Node)} {pair : Path.Text × List Leaf}
    (among : pair ∈ inOrderOfChildren children) {leaf : Leaf} (listed : leaf ∈ pair.2) :
    ∃ names, leaf.names = pair.1 :: names := by
  induction children with
  | nil => cases among
  | cons first rest ih =>
      obtain ⟨name, child⟩ := first
      rw [inOrderOfChildren] at among
      rcases List.mem_cons.mp among with rfl | later
      · obtain ⟨inner, _, rfl⟩ := List.mem_map.mp listed
        exact ⟨inner.names, rfl⟩
      · exact ih later

mutual

/-- The names of the files ascend, compared name by name. -/
theorem inOrder_pairwise (node : Node) (tree : node.IsTree) :
    node.inOrder.Pairwise fun one other =>
      one.names.map Path.Text.bytes < other.names.map Path.Text.bytes := by
  cases node with
  | file content =>
      rw [inOrder]
      exact List.pairwise_singleton _ _
  | directory children =>
      simp only [IsTree] at tree
      rw [inOrder, List.pairwise_flatMap]
      constructor
      · intro pair among
        exact inOrderOfChildren_pairwise children tree.2 pair (mem_byName.mp among)
      · have names := (map_fst_inOrderOfChildren children).symm ▸ tree.1
        apply (byName_pairwise names).imp_of_mem
        intro one other inOne inOther less leaf listed otherLeaf otherListed
        obtain ⟨front, named⟩ := exists_below_of_mem (mem_byName.mp inOne) listed
        obtain ⟨back, otherNamed⟩ := exists_below_of_mem (mem_byName.mp inOther) otherListed
        rw [named, otherNamed]
        exact List.cons_lt_cons_iff.mpr (Or.inl less)

theorem inOrderOfChildren_pairwise (children : List (Path.Text × Node)) (trees : AreTrees children)
    (pair : Path.Text × List Leaf) (among : pair ∈ inOrderOfChildren children) :
    pair.2.Pairwise fun one other =>
      one.names.map Path.Text.bytes < other.names.map Path.Text.bytes := by
  cases children with
  | nil => cases among
  | cons first rest =>
      obtain ⟨name, child⟩ := first
      simp only [AreTrees] at trees
      rw [inOrderOfChildren] at among
      rcases List.mem_cons.mp among with rfl | later
      · apply List.pairwise_map.mpr
        apply (inOrder_pairwise child trees.2.1).imp
        intro one other less
        exact List.cons_lt_cons_iff.mpr (Or.inr ⟨rfl, less⟩)
      · exact inOrderOfChildren_pairwise rest trees.2.2 pair later

end

theorem isTree_of_mem {children : List (Path.Text × Node)} (trees : AreTrees children)
    {name : Path.Text}
    {child : Node} (among : (name, child) ∈ children) : child.IsTree := by
  induction children with
  | nil => cases among
  | cons first rest ih =>
      obtain ⟨other, node⟩ := first
      simp only [AreTrees] at trees
      rcases List.mem_cons.mp among with same | later
      · cases same
        exact trees.2.1
      · exact ih trees.2.2 later

theorem mem_leavesOfChildren_iff (children : List (Path.Text × Node)) (leaf : Leaf) :
    leaf ∈ leavesOfChildren children ↔
      ∃ name child, (name, child) ∈ children ∧ ∃ inner ∈ child.leaves, leaf = inner.below name := by
  induction children with
  | nil => simp [leavesOfChildren]
  | cons first rest ih =>
      obtain ⟨name, child⟩ := first
      simp only [leavesOfChildren, List.mem_append, List.mem_map, ih]
      constructor
      · rintro (⟨inner, among, rfl⟩ | ⟨other, node, later, inner⟩)
        · exact ⟨name, child, List.mem_cons_self, inner, among, rfl⟩
        · exact ⟨other, node, List.mem_cons_of_mem _ later, inner⟩
      · rintro ⟨other, node, here, inner, among, rfl⟩
        rcases List.mem_cons.mp here with same | later
        · cases same
          exact Or.inl ⟨inner, among, rfl⟩
        · exact Or.inr ⟨other, node, later, inner, among, rfl⟩

/-- The files of a tree are those that its names lead to. -/
theorem mem_leaves_iff (node : Node) (tree : node.IsTree) (names : List Path.Text) (content : Bytes) :
    (⟨names, content⟩ : Leaf) ∈ node.leaves ↔ node.at? names = some (.file content) := by
  induction names generalizing node with
  | nil =>
      cases node with
      | file other => simp [leaves, at?, eq_comm]
      | directory children =>
          have named : (⟨[], content⟩ : Leaf) ∉ (directory children).leaves :=
            fun among => names_ne_nil among rfl
          simp [named, at?]
  | cons name rest ih =>
      cases node with
      | file other => simp [leaves, at?, Node.children]
      | directory children =>
          simp only [IsTree] at tree
          simp only [leaves, at?, Node.children, Option.bind_eq_some_iff, mem_leavesOfChildren_iff]
          constructor
          · rintro ⟨other, child, among, inner, innerAmong, same⟩
            cases same
            exact ⟨child, lookup_of_mem tree.1 among,
              (ih child (isTree_of_mem tree.2 among)).mp innerAmong⟩
          · rintro ⟨child, found, leads⟩
            have among := mem_of_lookup found
            exact ⟨name, child, among, ⟨rest, content⟩,
              (ih child (isTree_of_mem tree.2 among)).mpr leads, rfl⟩

end Node

/-- Where a visit comes by all that is below a node, a walk lists the files in their order. -/
theorem FileTree.walk_eq {files : FileTree} {root : Path.Text} {node : Node}
    (visited : files.visit root = .ok (node.entriesAt root)) :
    files.walk root = .ok (node.inOrder.map fun leaf => joinAll root leaf.names) := by
  rw [walk, visited]
  dsimp only
  rw [Node.filePaths_entriesAt]

end Classpath
