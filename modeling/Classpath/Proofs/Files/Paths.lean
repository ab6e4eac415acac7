import Mathlib.Data.List.Basic
import Classpath.Files.Tree
import Classpath.Proofs.Text.Lossy

/-!
Paths put together out of names. Main statement: the components of a path with names joined to it
are those of the path and behind them the names, so that its key from the path on is the texts of
the names with slashes between them.
-/

set_option autoImplicit false

namespace Classpath.Path

namespace Text

@[simp] theorem shown_ofString (text : String) : shown (ofString text) = text := by
  rw [shown, ofString, Text.Utf8.decodeLossy_encode, String.ofList_toList]

theorem string?_eq_some_iff (path : Text) (text : String) :
    path.string? = some text ↔ path = ofString text := by
  cases path with
  | mk bytes =>
      simp only [string?, ofString, Option.map_eq_some_iff, Text.Utf8.decode?_eq_some_iff,
        mk.injEq]
      constructor
      · rintro ⟨characters, rfl, rfl⟩
        rw [String.toList_ofList]
      · rintro rfl
        exact ⟨text.toList, rfl, String.ofList_toList⟩

/-- The bytes are a text in UTF-8. -/
def IsText (path : Text) : Prop := ∃ text : String, path = text

theorem ofString_shown {path : Text} (isText : path.IsText) : ofString path.shown = path := by
  obtain ⟨text, rfl⟩ := isText
  rw [shown_ofString]

end Text

/-- A name that a file can have in a directory. -/
structure IsName (name : Text) : Prop where
  present : name.bytes ≠ []
  notCurrent : name.bytes ≠ [dot]
  notParent : name.bytes ≠ [dot, dot]
  plain : slash ∉ name.bytes
  noNul : 0 ∉ name.bytes
  small : name.bytes.length ≤ Node.maxNameSize

instance (name : Text) : Decidable (IsName name) :=
  decidable_of_iff (name.bytes ≠ [] ∧ name.bytes ≠ [dot] ∧ name.bytes ≠ [dot, dot] ∧
      slash ∉ name.bytes ∧ 0 ∉ name.bytes ∧ name.bytes.length ≤ Node.maxNameSize)
    ⟨fun ⟨present, notCurrent, notParent, plain, noNul, small⟩ =>
      ⟨present, notCurrent, notParent, plain, noNul, small⟩,
    fun ⟨present, notCurrent, notParent, plain, noNul, small⟩ =>
      ⟨present, notCurrent, notParent, plain, noNul, small⟩⟩

/-- Its text has no slash either. -/
theorem IsName.plain_shown {name : Text} (named : IsName name) : '/' ∉ name.shown.toList := by
  rw [Text.shown, String.toList_ofList]
  intro among
  exact named.plain ((Text.Utf8.mem_decodeLossy_iff (by decide) name.bytes).mp among)

def joinAll (path : Text) (names : List Text) : Text := names.foldl join path

/-- What stands between the slashes of a path, but for nothing behind the last of them. -/
def trunk (path : Text) : List Text :=
  if path.bytes.getLast? = some slash then (pieces path).dropLast else pieces path

section Pieces

variable {path name : Text}

theorem pieces_append_slash (front back : Bytes) :
    pieces ⟨front ++ slash :: back⟩ = pieces ⟨front⟩ ++ pieces ⟨back⟩ := by
  simp [pieces, List.splitOn_append_cons_self]

theorem pieces_ne_nil (path : Text) : pieces path ≠ [] := by
  simp [pieces, List.splitOn_ne_nil]

theorem pieces_empty : pieces ⟨[]⟩ = [⟨[]⟩] := by
  simp [pieces]

theorem pieces_plain (plain : slash ∉ name.bytes) : pieces name = [name] := by
  have whole : name.bytes.splitOn slash = [name.bytes] := by
    apply List.splitOnP_eq_singleton
    intro byte among
    simp only [beq_eq_false_iff_ne]
    intro same
    exact plain (same ▸ among)
  simp [pieces, whole]

theorem exists_front (ends : path.bytes.getLast? = some slash) :
    ∃ front : Bytes, path = ⟨front ++ [slash]⟩ := by
  obtain ⟨front, whole⟩ := List.getLast?_eq_some_iff.mp ends
  exact ⟨front, by rw [← whole]⟩

theorem pieces_append_last (front : Bytes) :
    pieces ⟨front ++ [slash]⟩ = pieces ⟨front⟩ ++ [⟨[]⟩] := by
  rw [pieces_append_slash, pieces_empty]

theorem trunk_append_slash (front : Bytes) : trunk ⟨front ++ [slash]⟩ = pieces ⟨front⟩ := by
  simp [trunk, pieces_append_last]

theorem trunk_of_open (opens : path.bytes.getLast? ≠ some slash) : trunk path = pieces path :=
  if_neg opens

theorem pieces_eq_trunk (path : Text) :
    pieces path = trunk path ∨ pieces path = trunk path ++ [⟨[]⟩] := by
  by_cases ends : path.bytes.getLast? = some slash
  · obtain ⟨front, rfl⟩ := exists_front ends
    exact Or.inr (by rw [trunk_append_slash, pieces_append_last])
  · exact Or.inl (trunk_of_open ends).symm

theorem trunk_ne_nil (path : Text) : trunk path ≠ [] := by
  by_cases ends : path.bytes.getLast? = some slash
  · obtain ⟨front, rfl⟩ := exists_front ends
    rw [trunk_append_slash]
    exact pieces_ne_nil ⟨front⟩
  · rw [trunk_of_open ends]
    exact pieces_ne_nil path

theorem head?_trunk (path : Text) : (trunk path).head? = (pieces path).head? := by
  rcases pieces_eq_trunk path with same | more
  · rw [same]
  · cases whole : trunk path with
    | nil => exact absurd whole (trunk_ne_nil path)
    | cons first rest => simp [more, whole]

theorem isAbsolute_plain (plain : slash ∉ name.bytes) : isAbsolute name = false := by
  simp only [isAbsolute, decide_eq_false_iff_not]
  intro first
  exact plain (List.mem_of_mem_head? first)

/-- What is put behind a path begins where its last slash ends, or behind a slash of its own. -/
theorem join_cases (present : path.bytes ≠ []) (plain : slash ∉ name.bytes) :
    (∃ front, path = ⟨front ++ [slash]⟩ ∧ join path name = ⟨front ++ slash :: name.bytes⟩) ∨
      (path.bytes.getLast? ≠ some slash ∧ join path name = ⟨path.bytes ++ slash :: name.bytes⟩) := by
  by_cases ends : path.bytes.getLast? = some slash
  · obtain ⟨front, rfl⟩ := exists_front ends
    exact Or.inl ⟨front, rfl, by simp [join, isAbsolute_plain plain]⟩
  · exact Or.inr ⟨ends, by simp [join, isAbsolute_plain plain, present, ends]⟩

theorem pieces_join (present : path.bytes ≠ []) (plain : slash ∉ name.bytes) :
    pieces (join path name) = trunk path ++ [name] := by
  rcases join_cases present plain with ⟨front, rfl, joined⟩ | ⟨opens, joined⟩
  · rw [joined, pieces_append_slash, trunk_append_slash, pieces_plain plain]
  · rw [joined, pieces_append_slash, trunk_of_open opens, pieces_plain plain]

/-- The path and the name stay whole when they are joined. -/
theorem exists_gap (present : path.bytes ≠ []) (plain : slash ∉ name.bytes) :
    ∃ gap : Bytes, (gap = [] ∨ gap = [slash]) ∧
      (join path name).bytes = path.bytes ++ gap ++ name.bytes := by
  rcases join_cases present plain with ⟨front, rfl, joined⟩ | ⟨_, joined⟩
  · exact ⟨[], Or.inl rfl, by simp [joined]⟩
  · exact ⟨[slash], Or.inr rfl, by simp [joined]⟩

/-- Behind a name there is no slash. -/
theorem trunk_join (present : path.bytes ≠ []) (named : IsName name) :
    trunk (join path name) = trunk path ++ [name] := by
  have opens : (join path name).bytes.getLast? ≠ some slash := by
    obtain ⟨gap, _, joined⟩ := exists_gap present named.plain
    rw [joined, List.getLast?_append, List.getLast?_eq_some_getLast named.present, Option.some_or]
    intro ends
    apply named.plain
    rw [← Option.some.inj ends]
    exact List.getLast_mem named.present
  rw [trunk_of_open opens, pieces_join present named.plain]

theorem join_ne_empty (present : path.bytes ≠ []) (named : IsName name) :
    (join path name).bytes ≠ [] := by
  obtain ⟨gap, _, joined⟩ := exists_gap present named.plain
  simp [joined, present]

theorem isAbsolute_join (present : path.bytes ≠ []) (named : IsName name) :
    isAbsolute (join path name) = isAbsolute path := by
  obtain ⟨gap, _, joined⟩ := exists_gap present named.plain
  cases whole : path.bytes with
  | nil => exact absurd whole present
  | cons first rest => simp [isAbsolute, joined, whole]

theorem nul_join (present : path.bytes ≠ []) (named : IsName name) (absent : 0 ∉ path.bytes) :
    0 ∉ (join path name).bytes := by
  have noNul := named.noNul
  have noSlash : (0 : UInt8) ≠ slash := by decide
  obtain ⟨gap, known | known, joined⟩ := exists_gap present named.plain
  · simp [joined, known, absent, noNul]
  · simp [joined, known, absent, noNul, noSlash]

end Pieces

section Names

variable {path : Text} {names : List Text}

theorem joinAll_append_singleton (path : Text) (names : List Text) (name : Text) :
    joinAll path (names ++ [name]) = join (joinAll path names) name := by
  simp [joinAll]

theorem joinAll_cons (path : Text) (name : Text) (names : List Text) :
    joinAll path (name :: names) = joinAll (join path name) names := rfl

/-- What joining one name keeps is kept by joining them all. -/
theorem joinAll_induction (holds : Text → Prop) (start : holds path)
    (step : ∀ (path name : Text), IsName name → holds path → holds (join path name))
    (named : ∀ name ∈ names, IsName name) : holds (joinAll path names) := by
  induction names generalizing path with
  | nil => exact start
  | cons name rest ih =>
      apply ih (step path name (named name List.mem_cons_self) start)
      exact fun other among => named other (List.mem_cons_of_mem _ among)

theorem joinAll_ne_empty (present : path.bytes ≠ []) (named : ∀ name ∈ names, IsName name) :
    (joinAll path names).bytes ≠ [] :=
  joinAll_induction (·.bytes ≠ []) present (fun _ _ one kept => join_ne_empty kept one) named

theorem isAbsolute_joinAll (present : path.bytes ≠ []) (named : ∀ name ∈ names, IsName name) :
    isAbsolute (joinAll path names) = isAbsolute path := by
  have both : (joinAll path names).bytes ≠ [] ∧
      isAbsolute (joinAll path names) = isAbsolute path := by
    apply joinAll_induction (fun joined => joined.bytes ≠ [] ∧ isAbsolute joined = isAbsolute path)
      ⟨present, rfl⟩ _ named
    intro other name one kept
    exact ⟨join_ne_empty kept.1 one, (isAbsolute_join kept.1 one).trans kept.2⟩
  exact both.2

theorem nul_joinAll (present : path.bytes ≠ []) (named : ∀ name ∈ names, IsName name)
    (absent : 0 ∉ path.bytes) : 0 ∉ (joinAll path names).bytes := by
  have both : (joinAll path names).bytes ≠ [] ∧ 0 ∉ (joinAll path names).bytes := by
    apply joinAll_induction (fun joined => joined.bytes ≠ [] ∧ 0 ∉ joined.bytes)
      ⟨present, absent⟩ _ named
    intro other name one kept
    exact ⟨join_ne_empty kept.1 one, nul_join kept.1 one kept.2⟩
  exact both.2

theorem trunk_joinAll (present : path.bytes ≠ []) (named : ∀ name ∈ names, IsName name) :
    trunk (joinAll path names) = trunk path ++ names := by
  induction names generalizing path with
  | nil => simp [joinAll]
  | cons name rest ih =>
      have one := named name List.mem_cons_self
      have others : ∀ other ∈ rest, IsName other :=
        fun other among => named other (List.mem_cons_of_mem _ among)
      rw [joinAll_cons, ih (join_ne_empty present one) others, trunk_join present one]
      simp

theorem pieces_joinAll (present : path.bytes ≠ []) (named : ∀ name ∈ names, IsName name)
    (filled : names ≠ []) : pieces (joinAll path names) = trunk path ++ names := by
  have front : ∀ name ∈ names.dropLast, IsName name :=
    fun name among => named name (List.dropLast_subset _ among)
  have last := named (names.getLast filled) (List.getLast_mem filled)
  rw [← List.dropLast_concat_getLast filled, joinAll_append_singleton,
    pieces_join (joinAll_ne_empty present front) last.plain, trunk_joinAll present front,
    List.append_assoc]

theorem component?_name {name : Text} (named : IsName name) :
    component? name = some (.normal name) := by
  simp [component?, isIdle, isParent, named.present, named.notCurrent, named.notParent]

theorem filterMap_names (named : ∀ name ∈ names, IsName name) :
    names.filterMap component? = names.map .normal := by
  induction names with
  | nil => rfl
  | cons name rest ih =>
      have others := ih fun other among => named other (List.mem_cons_of_mem _ among)
      simp [component?_name (named name List.mem_cons_self), others]

theorem filterMap_trunk (path : Text) :
    (trunk path).filterMap component? = (pieces path).filterMap component? := by
  rcases pieces_eq_trunk path with same | more
  · rw [same]
  · simp [more, component?, isIdle]

theorem components_joinAll (present : path.bytes ≠ []) (named : ∀ name ∈ names, IsName name) :
    components (joinAll path names) = components path ++ names.map .normal := by
  have front : (pieces (joinAll path names)).filterMap component? =
      (pieces path).filterMap component? ++ names.map .normal := by
    rw [← filterMap_trunk, trunk_joinAll present named, List.filterMap_append, filterMap_trunk,
      filterMap_names named]
  have first : (pieces (joinAll path names)).head? = (pieces path).head? := by
    rw [← head?_trunk, trunk_joinAll present named, ← head?_trunk path]
    cases whole : trunk path with
    | nil => exact absurd whole (trunk_ne_nil path)
    | cons first rest => rfl
  simp only [components, isAbsolute_joinAll present named, first, front, List.append_assoc]

/-- The key of a file below a root is made of the names that lead to it. -/
theorem relativeKey_joinAll (present : path.bytes ≠ []) (named : ∀ name ∈ names, IsName name) :
    relativeKey path (joinAll path names) = "/".intercalate (names.map Text.shown) := by
  have texts : (names.map Component.normal).map (·.text.shown) = names.map Text.shown := by
    simp [Function.comp_def, Component.text]
  rw [relativeKey, components_joinAll present named, relativeComponents,
    List.isPrefixOf?_eq_some_iff_append_eq.mpr rfl, Option.getD_some, texts]

theorem relativeKey_of_join {file : Text} {text : String} (joined : file = join path text)
    (present : path.bytes ≠ []) (named : IsName text) : relativeKey path file = text := by
  have alone : ∀ name ∈ [(text : Text)], IsName name := by simpa using named
  rw [joined]
  exact (relativeKey_joinAll present alone).trans (by simp)

theorem extension?_joinAll (present : path.bytes ≠ []) (named : ∀ name ∈ names, IsName name)
    (filled : names ≠ []) :
    extension? (joinAll path names) =
      (nameExtension? (names.getLast filled)).bind Text.string? := by
  have last : (components (joinAll path names)).getLast? =
      some (.normal (names.getLast filled)) := by
    rw [components_joinAll present named, List.getLast?_append, List.getLast?_map,
      List.getLast?_eq_some_getLast filled]
    rfl
  rw [extension?, fileName?, last]
  rfl

end Names

theorem extension?_eq_some_iff (path : Text) (extension : String) :
    extension? path = some extension ↔
      (fileName? path).bind nameExtension? = some (extension : Text) := by
  rw [extension?, Option.bind_eq_some_iff]
  simp [Text.string?_eq_some_iff]

/-- Seen from its end, a name is what follows its last dot, and then that dot. -/
theorem nameExtension?_eq (name : Text) :
    nameExtension? name =
      match name.bytes.reverse.dropWhile (· ≠ dot) with
      | [] | [_] => none
      | _ :: _ => some ⟨(name.bytes.reverse.takeWhile (· ≠ dot)).reverse⟩ := by
  have whole := List.takeWhile_append_dropWhile (p := (· ≠ dot)) (l := name.bytes.reverse)
  have split (front back : Bytes) : (front ++ back).drop front.length = back := List.drop_left
  have rest := split (name.bytes.reverse.takeWhile (· ≠ dot))
    (name.bytes.reverse.dropWhile (· ≠ dot))
  rw [whole] at rest
  rw [← rest]
  rfl

/-- An extension follows a last dot that does not begin the name. -/
theorem nameExtension?_eq_some_iff {name extension : Text} (plain : dot ∉ extension.bytes) :
    nameExtension? name = some extension ↔
      ∃ stem, stem ≠ [] ∧ name.bytes = stem ++ dot :: extension.bytes := by
  have whole := List.takeWhile_append_dropWhile (p := (· ≠ dot)) (l := name.bytes.reverse)
  rw [nameExtension?_eq]
  constructor
  · intro extended
    split at extended
    · cases extended
    · cases extended
    · rename_i first rest more found
      have ends : first = dot := by
        have stops := List.head?_dropWhile_not (· ≠ dot) name.bytes.reverse
        rw [found] at stops
        simpa using stops
      have tail : (name.bytes.reverse.takeWhile (· ≠ dot)).reverse = extension.bytes :=
        congrArg Text.bytes (Option.some.inj extended)
      refine ⟨rest.reverse, ?_, ?_⟩
      · intro none
        exact more (List.reverse_eq_nil_iff.mp none)
      · have split := congrArg List.reverse whole
        rw [List.reverse_append, found, ends, List.reverse_reverse, tail] at split
        simp [← split]
  · intro split
    obtain ⟨stem, filled, split⟩ := split
    have turned : name.bytes.reverse = extension.bytes.reverse ++ dot :: stem.reverse := by
      simp [split]
    have passes : ∀ byte ∈ extension.bytes.reverse, decide (byte ≠ dot) = true := by
      intro byte among
      simp only [decide_eq_true_eq]
      intro same
      exact plain (same ▸ List.mem_reverse.mp among)
    rw [turned, List.takeWhile_append_of_pos passes, List.dropWhile_append_of_pos passes]
    cases others : stem.reverse with
    | nil => simp_all
    | cons last front => simp

/-- The same of an extension that is a text. -/
theorem string?_nameExtension?_eq_some_iff {name : Text} {extension : String}
    (plain : dot ∉ (Text.ofString extension).bytes) :
    (nameExtension? name).bind Text.string? = some extension ↔
      ∃ stem, stem ≠ [] ∧ name.bytes = stem ++ dot :: (Text.ofString extension).bytes := by
  simp only [Option.bind_eq_some_iff, Text.string?_eq_some_iff, exists_eq_right,
    nameExtension?_eq_some_iff plain]

end Classpath.Path
