import Classpath.Proofs.Files.Ordering
import Classpath.Proofs.Registry.Contributions

/-!
Files in a directory and files packed into an archive. Main statement: a file adds the same wherever
it is, so that a directory and an archive of the same files add the same.
-/

set_option autoImplicit false

namespace Classpath

open Classpath.Path (IsName joinAll)

namespace Leaf

/-- The name of a file from the directory on that it is below. -/
def key (leaf : Leaf) : String := "/".intercalate (leaf.names.map Path.Text.shown)

def named (leaf : Leaf) : String × Except Error Bytes := (leaf.key, .ok leaf.content)

/-- A file is not taken for an archive by its extension, nor is its name nothing but the suffix of
classes, which is no extension. -/
def IsOrdinary (leaf : Leaf) : Prop :=
  ∀ name, leaf.names.getLast? = some name →
    (Path.nameExtension? name).bind Path.Text.string? ≠ some "jar" ∧
      (Path.nameExtension? name).bind Path.Text.string? ≠ some "zip" ∧
      name ≠ (Scan.classSuffix : Path.Text)

end Leaf

/-- A directory that is walked whole, each of its files leading to its contents by its path. -/
structure FileTree.Walkable (files : FileTree) (root : Path.Text)
    (children : List (Path.Text × Node)) : Prop where
  found : files.find root = .ok (.directory children)
  tree : (Node.directory children).IsTree
  notInput : isStandardInput root = false
  opens : (Node.directory children).canBeWalked root = true
  fits : ∀ leaf ∈ (Node.directory children).leaves,
    (joinAll root leaf.names).bytes.length ≤ maxPathSize

theorem FileTree.Walkable.visit {files : FileTree} {root : Path.Text}
    {children : List (Path.Text × Node)} (walkable : files.Walkable root children) :
    files.visit root = .ok ((Node.directory children).entriesAt root) := by
  simp [FileTree.visit, walkable.notInput, walkable.found, walkable.opens]

namespace Archive

/-- Members that are no directories, each with its name and what is read as its contents. -/
def named (archive : Archive) (listed : List Listed) : List (String × Except Error Bytes) :=
  (listed.filter (! ·.isDirectory)).map fun member =>
    (member.name, archive.readMember member.index)

/-- The archive has these files, each once, in whatever order and whatever directories are listed
with them. -/
def Packs (archive : Archive) (leaves : List Leaf) : Prop :=
  ∃ listed, archive.members = .ok listed ∧ (archive.named listed).Perm (leaves.map Leaf.named)

end Archive

/-! Names of classes. -/

theorem suffix_append_cons_iff {α : Type} {tail front back : List α} {mark : α}
    (absent : mark ∉ tail) : tail <:+ front ++ mark :: back ↔ tail <:+ back := by
  constructor
  · intro ends
    -- Two ends of one list: the shorter is an end of the longer.
    have marked : mark :: back <:+ front ++ mark :: back := List.suffix_append front _
    rcases List.suffix_or_suffix_of_suffix ends marked with inside | beyond
    · rcases List.suffix_cons_iff.mp inside with whole | ends
      · simp [whole] at absent
      · exact ends
    · exact absurd (beyond.subset List.mem_cons_self) absent
  · intro ends
    exact (ends.trans (List.suffix_cons mark back)).trans (List.suffix_append front _)

theorem Scan.isClassName_iff (name : String) :
    isClassName name = true ↔ classSuffix.toList <:+ name.toList :=
  List.isSuffixOf_iff_suffix

/-- Whether a file's name is one of a class is told by the last of the names that lead to it. -/
theorem Scan.isClassName_intercalate {names : List String} {last : String}
    (ends : names.getLast? = some last) : isClassName ("/".intercalate names) = isClassName last := by
  obtain ⟨front, rfl⟩ := List.getLast?_eq_some_iff.mp ends
  by_cases none : front = []
  · simp [none]
  · have absent : '/' ∉ classSuffix.toList := by decide
    rw [Bool.eq_iff_iff, isClassName_iff, isClassName_iff,
      String.intercalate_append_of_ne_nil none (by simp), String.intercalate_singleton,
      String.toList_append, String.toList_append, List.append_assoc]
    exact suffix_append_cons_iff absent

/-- The suffix stands in the text of a name where it stands in its bytes. -/
theorem Scan.isClassName_shown_iff (name : Path.Text) :
    isClassName name.shown = true ↔ (classSuffix : Path.Text).bytes <:+ name.bytes := by
  rw [isClassName_iff, Path.Text.shown, String.toList_ofList]
  exact Text.Utf8.suffix_decodeLossy_iff (by simp [classSuffix]) name.bytes

/-- The suffix of classes is an extension of every name but itself. -/
theorem Scan.isClassName_iff_extension {name : Path.Text}
    (more : name ≠ (classSuffix : Path.Text)) :
    isClassName name.shown = true ↔
      (Path.nameExtension? name).bind Path.Text.string? = some "class" := by
  rw [isClassName_shown_iff, Path.string?_nameExtension?_eq_some_iff (by decide)]
  constructor
  · intro ends
    obtain ⟨stem, whole⟩ := ends
    refine ⟨stem, ?_, whole.symm⟩
    intro none
    rw [none, List.nil_append] at whole
    exact more (congrArg Path.Text.mk whole.symm)
  · intro extended
    obtain ⟨stem, _, whole⟩ := extended
    exact ⟨stem, whole.symm⟩

namespace Addition

/-- What a file adds that goes by a name and has some contents. -/
def ofNamed? (own : Bool) (file : String × Except Error Bytes) : Option (List Addition) :=
  if Scan.isClassName file.1 then (ofClass? own file.1 file.2).map ([·])
  else some (if own then [⟨file.1, file.2, none⟩] else [])

section Together

variable {ι κ : Type} {each other : ι → Option (List Addition)} {items : List ι}

theorem both_nothing (additions : Option (List Addition)) : both (some []) additions = additions := by
  cases additions with
  | none => rfl
  | some additions => simp [both]

theorem together_congr (same : ∀ item ∈ items, each item = other item) :
    together each items = together other items := by
  induction items with
  | nil => rfl
  | cons item rest ih =>
      simp only [together, same item List.mem_cons_self]
      rw [ih fun later among => same later (List.mem_cons_of_mem item among)]

theorem together_map (each : ι → Option (List Addition)) (change : κ → ι) (items : List κ) :
    together each (items.map change) = together (fun item => each (change item)) items := by
  induction items with
  | nil => rfl
  | cons item rest ih => simp only [List.map_cons, together, ih]

end Together

/-- Directories add nothing, and other members what files of their names and contents add. -/
theorem ofMember?_eq (archive : Archive) (own : Bool) (member : Archive.Listed) :
    ofMember? archive own member =
      if member.isDirectory then some []
      else ofNamed? own (member.name, archive.readMember member.index) := by
  unfold ofMember? ofNamed?
  by_cases directory : member.isDirectory = true
  · simp [directory]
  · by_cases isClass : Scan.isClassName member.name = true
    · simp [directory, isClass]
    · cases own with
      | true => simp [directory, isClass]
      | false => simp [directory, isClass]

theorem together_members (archive : Archive) (own : Bool) (listed : List Archive.Listed) :
    together (ofMember? archive own) listed = together (ofNamed? own) (archive.named listed) := by
  induction listed with
  | nil => rfl
  | cons member rest ih =>
      rw [together, ofMember?_eq, ih]
      by_cases directory : member.isDirectory = true
      · simp [Archive.named, directory, both_nothing]
      · simp [Archive.named, directory, together]

section Directory

variable {files : FileTree} {root jar : Path.Text} {children : List (Path.Text × Node)}
  {archive : Archive}

/-- A file that a walk lists adds what a file of its name and contents does. -/
theorem ofFile?_leaf (walkable : files.Walkable root children) {leaf : Leaf}
    (among : leaf ∈ (Node.directory children).leaves) (ordinary : leaf.IsOrdinary) (own : Bool) :
    ofFile? files (Path.relativeKey root (joinAll root leaf.names)) (joinAll root leaf.names) own =
      ofNamed? own leaf.named := by
  have present := ((FileTree.find_eq_ok_iff root).mp walkable.found).1
  have names := Node.isName_of_leaf _ walkable.tree leaf among
  have behind := Node.names_ne_nil among
  have ends := List.getLast?_eq_some_getLast behind
  obtain ⟨notJar, notZip, more⟩ := ordinary _ ends
  have extension := Path.extension?_joinAll present names behind
  have isClass : Scan.isClassName leaf.named.1 = true ↔
      Path.extension? (joinAll root leaf.names) = some "class" := by
    have last : (leaf.names.map Path.Text.shown).getLast? =
        some (leaf.names.getLast behind).shown := by
      rw [List.getLast?_map, ends, Option.map_some]
    change Scan.isClassName ("/".intercalate (leaf.names.map Path.Text.shown)) = true ↔ _
    rw [Scan.isClassName_intercalate last, Scan.isClassName_iff_extension more, extension]
  have read : (Entry.file (joinAll root leaf.names)).read files #[] = .ok leaf.content := by
    rw [Entry.read, FileTree.read_joinAll walkable.found walkable.tree among behind
      (walkable.fits leaf among)]
    rfl
  rw [Path.relativeKey_joinAll present names]
  unfold ofFile? ofNamed?
  rw [read]
  split
  · rename_i extended
    rw [if_pos (isClass.mpr extended)]
    rfl
  · rename_i extended
    exact absurd (extension.symm.trans extended) notJar
  · rename_i extended
    exact absurd (extension.symm.trans extended) notZip
  · rename_i notClass _ _
    rw [if_neg fun named => notClass (isClass.mp named)]
    rfl

/-- A directory adds what its files do, each by its name and contents. -/
theorem gain_directory (walkable : files.Walkable root children)
    (ordinary : ∀ leaf ∈ (Node.directory children).leaves, leaf.IsOrdinary) (own : Bool)
    (view? : Option View) :
    View.gain view? (ofInput? files (some FileTree.walk) root own) =
      View.gain view?
        (together (ofNamed? own) ((Node.directory children).leaves.map Leaf.named)) := by
  have isDirectory : files.isDirectory root = true := by
    simp [FileTree.isDirectory, walkable.found]
  have walked := FileTree.walk_eq walkable.visit
  have adds : ofInput? files (some FileTree.walk) root own =
      together (fun path => ofFile? files (Path.relativeKey root path) path own)
        ((Node.directory children).inOrder.map fun leaf => joinAll root leaf.names) := by
    simp only [ofInput?, isDirectory, if_true, ofDirectory?, walked]
  rw [adds, together_map, View.gain_together_perm _ (Node.inOrder_perm _), together_map]
  apply congrArg (View.gain view?)
  apply together_congr
  intro leaf among
  exact ofFile?_leaf walkable among (ordinary leaf among) own

/-- An archive adds what its files do, each by its name and contents. -/
theorem gain_archive {leaves : List Leaf}
    (isArchive : Path.extension? jar = some "jar" ∨ Path.extension? jar = some "zip")
    (opened : Archive.openAt files jar = .ok archive) (packed : archive.Packs leaves)
    (walker : Option Walker) (own : Bool) (view? : Option View) :
    View.gain view? (ofInput? files walker jar own) =
      View.gain view? (together (ofNamed? own) (leaves.map Leaf.named)) := by
  obtain ⟨listed, members, rearranged⟩ := packed
  have notDirectory : files.isDirectory jar = false := by
    unfold Archive.openAt at opened
    unfold FileTree.isDirectory
    split at opened
    · cases opened
    · cases opened
    · rename_i content found
      rw [found]
  have adds : ofInput? files walker jar own = ofArchive? files jar own := by
    rw [ofInput?, notDirectory]
    cases named : Path.fileName? jar with
    | none => simp [Path.extension?, named] at isArchive
    | some key =>
        rcases isArchive with extended | extended
        · simp [ofFile?, extended]
        · simp [ofFile?, extended]
  rw [adds, ofArchive?, opened]
  dsimp only
  rw [ofMembers?, members]
  dsimp only
  rw [together_members]
  exact View.gain_together_perm _ rearranged view?

end Directory

/-! What is read behind what files add. -/

def Readable (added : Addition) : Prop := ∃ bytes, added.contents = .ok bytes

theorem readable_ofNamed? {own : Bool} {leaf : Leaf} {additions : List Addition}
    (adds : ofNamed? own leaf.named = some additions) : ∀ added ∈ additions, added.Readable := by
  intro added among
  unfold ofNamed? ofClass? Leaf.named at adds
  dsimp only at adds
  split at adds
  · obtain ⟨only, made, rfl⟩ := Option.map_eq_some_iff.mp adds
    split at made
    · cases made
    · cases made
      rw [List.mem_singleton.mp among]
      exact ⟨leaf.content, rfl⟩
  · cases adds
    split at among
    · rw [List.mem_singleton.mp among]
      exact ⟨leaf.content, rfl⟩
    · cases among

theorem both_eq_some {first second : Option (List Addition)} {additions : List Addition}
    (adds : both first second = some additions) :
    ∃ front back, first = some front ∧ second = some back ∧ additions = front ++ back := by
  obtain ⟨front, starts, adds⟩ := Option.bind_eq_some_iff.mp adds
  obtain ⟨back, ends, whole⟩ := Option.map_eq_some_iff.mp adds
  exact ⟨front, back, starts, ends, whole.symm⟩

theorem readable_together {own : Bool} {leaves : List Leaf} {additions : List Addition}
    (adds : together (ofNamed? own) (leaves.map Leaf.named) = some additions) :
    ∀ added ∈ additions, added.Readable := by
  induction leaves generalizing additions with
  | nil =>
      cases adds
      simp
  | cons leaf rest ih =>
      obtain ⟨front, back, starts, ends, rfl⟩ := both_eq_some adds
      intro added among
      rcases List.mem_append.mp among with inFront | inBack
      · exact readable_ofNamed? starts added inFront
      · exact ih ends added inBack

end Addition

namespace View

/-- What cannot be read once all is added that can be, was there before. -/
theorem contents_gain {additions : List Addition} (readable : ∀ added ∈ additions, added.Readable)
    {view after : View} (gained : gain (some view) (some additions) = some after) (key : String) :
    after.contents key = view.contents key ∨ ∃ bytes, after.contents key = some (.ok bytes) := by
  change additions.foldl take (some view) = some after at gained
  induction additions generalizing view with
  | nil =>
      cases gained
      exact Or.inl rfl
  | cons added rest ih =>
      rw [List.foldl_cons, take, Option.bind_some] at gained
      by_cases free : view.isFree added = true
      · rw [if_pos free] at gained
        rcases ih (fun later among => readable later (List.mem_cons_of_mem added among)) gained
          with same | read
        · by_cases here : key = added.key
          · obtain ⟨bytes, contents⟩ := readable added List.mem_cons_self
            have put : (view.put added).contents key = some added.contents := by
              rw [here]
              exact Function.update_self _ _ _
            exact Or.inr ⟨bytes, by rw [same, put, contents]⟩
          · exact Or.inl (same.trans (Function.update_of_ne here _ _))
        · exact Or.inr read
      · rw [if_neg free] at gained
        have nothing : rest.foldl take none = none := gain_none (some rest)
        rw [nothing] at gained
        cases gained

end View

/-- A directory whose path is a lone dash adds nothing, whatever is in it. -/
theorem Scan.scan_standardInput {files : FileTree} {root : Path.Text}
    {children : List (Path.Text × Node)} {catalog : Catalog}
    (walks : catalog.registry.walker = some FileTree.walk)
    (found : files.find root = .ok (.directory children))
    (input : FileTree.isStandardInput root = true) (own : Bool) :
    scan files root own catalog = .ok () catalog := by
  have isDirectory : files.isDirectory root = true := by simp [FileTree.isDirectory, found]
  have walked : files.walk root = .ok [] := by
    simp [FileTree.walk, FileTree.visit, input, FileTree.filePaths]
  rw [scan, if_pos isDirectory, scanDirectory_eq, walks]
  dsimp only
  rw [walked]
  rfl

end Classpath
