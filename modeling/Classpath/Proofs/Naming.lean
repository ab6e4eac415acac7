import Mathlib.Data.List.Basic
import Mathlib.Data.List.TakeWhile
import Classpath.Naming

/-!
Names of sources. Main statement: what has one is what has the suffix of classes, it is in the
directory of its class file, and no two class files share it.
-/

set_option autoImplicit false

namespace Classpath.Naming

section Parts

variable {front back : List Char}

theorem simplePart_append (plain : '/' ∉ back) :
    simplePart (front ++ back) = simplePart front ++ back := by
  have passes : ∀ character ∈ back.reverse, decide (character ≠ '/') = true := by
    intro character among
    exact decide_eq_true fun same => plain (same ▸ List.mem_reverse.mp among)
  rw [simplePart, List.reverse_append, List.takeWhile_append_of_pos passes, List.reverse_append,
    List.reverse_reverse]
  rfl

/-- Without a slash in it, what is behind a name is in the same directory. -/
theorem directoryPart_append (plain : '/' ∉ back) :
    directoryPart (front ++ back) = directoryPart front := by
  have whole := directoryPart_append_simplePart (front ++ back)
  rw [simplePart_append plain, ← List.append_assoc] at whole
  have split := List.append_cancel_right whole
  exact List.append_cancel_right (split.trans (directoryPart_append_simplePart front).symm)

theorem slash_not_mem_simplePart (name : List Char) : '/' ∉ simplePart name := by
  intro among
  have passed := List.mem_takeWhile_imp (List.mem_reverse.mp among)
  simp at passed

theorem directoryPart_directoryPart (name : List Char) :
    directoryPart (directoryPart name) = directoryPart name := by
  have whole : directoryPart (directoryPart name ++ simplePart name) =
      directoryPart (directoryPart name) :=
    directoryPart_append (slash_not_mem_simplePart name)
  rw [directoryPart_append_simplePart] at whole
  exact whole.symm

end Parts

theorem slash_not_mem_classSuffix : '/' ∉ classSuffix := by decide

theorem slash_not_mem_sourceSuffix : '/' ∉ sourceSuffix := by decide

section SourceEntry

variable {entry target : String}

/-- The suffix of classes makes way for that of sources. -/
theorem sourceEntryName?_none_iff :
    sourceEntryName? entry none = some target ↔
      ∃ stem, entry.toList = stem ++ classSuffix ∧ target = String.ofList (stem ++ sourceSuffix) := by
  simp only [sourceEntryName?, Option.map_eq_some_iff, List.isSuffixOf?_eq_some_iff_append_eq]
  constructor
  · rintro ⟨stem, split, named⟩
    exact ⟨stem, split.symm, named.symm⟩
  · rintro ⟨stem, split, named⟩
    exact ⟨stem, split.symm, named.symm⟩

theorem sourceEntryName?_some_iff {name : String} :
    sourceEntryName? entry (some name) = some target ↔
      classSuffix <:+ entry.toList ∧ target =
        String.ofList (directoryPart entry.toList ++ simplePart name.toList ++ sourceSuffix) := by
  simp only [sourceEntryName?, Option.map_eq_some_iff, List.isSuffixOf?_eq_some_iff_append_eq]
  constructor
  · rintro ⟨stem, split, named⟩
    exact ⟨⟨stem, split⟩, named.symm⟩
  · rintro ⟨⟨stem, split⟩, named⟩
    exact ⟨stem, split, named.symm⟩

theorem isSome_sourceEntryName?_iff (renamed : Option String) :
    (sourceEntryName? entry renamed).isSome = true ↔ classSuffix <:+ entry.toList := by
  rw [sourceEntryName?, Option.isSome_map, List.isSome_isSuffixOf?_eq_isSuffixOf,
    List.isSuffixOf_iff_suffix]

/-- A source is in the directory of its class file, whatever the class is renamed to. -/
theorem directoryPart_sourceEntryName? {renamed : Option String}
    (named : sourceEntryName? entry renamed = some target) :
    directoryPart target.toList = directoryPart entry.toList := by
  cases renamed with
  | none =>
      obtain ⟨stem, split, rfl⟩ := sourceEntryName?_none_iff.mp named
      rw [split, String.toList_ofList, directoryPart_append slash_not_mem_sourceSuffix,
        directoryPart_append slash_not_mem_classSuffix]
  | some name =>
      obtain ⟨_, rfl⟩ := sourceEntryName?_some_iff.mp named
      rw [String.toList_ofList, directoryPart_append slash_not_mem_sourceSuffix,
        directoryPart_append (slash_not_mem_simplePart _), directoryPart_directoryPart]

/-- To be renamed to what one is called already changes nothing. -/
theorem sourceEntryName?_stem (stem : List Char) :
    sourceEntryName? (String.ofList (stem ++ classSuffix)) (some (String.ofList stem)) =
      sourceEntryName? (String.ofList (stem ++ classSuffix)) none := by
  have plain : sourceEntryName? (String.ofList (stem ++ classSuffix)) none =
      some (String.ofList (stem ++ sourceSuffix)) :=
    sourceEntryName?_none_iff.mpr ⟨stem, String.toList_ofList, rfl⟩
  rw [plain, sourceEntryName?_some_iff, String.toList_ofList, String.toList_ofList,
    directoryPart_append slash_not_mem_classSuffix, directoryPart_append_simplePart]
  exact ⟨List.suffix_append stem classSuffix, rfl⟩

/-- No two class files have one source. -/
theorem eq_of_sourceEntryName? {other : String} (named : sourceEntryName? entry none = some target)
    (otherNamed : sourceEntryName? other none = some target) : entry = other := by
  obtain ⟨stem, split, rfl⟩ := sourceEntryName?_none_iff.mp named
  obtain ⟨otherStem, otherSplit, same⟩ := sourceEntryName?_none_iff.mp otherNamed
  have stems := List.append_cancel_right (String.ofList_injective same)
  apply String.toList_injective
  rw [split, otherSplit, stems]

end SourceEntry

end Classpath.Naming
