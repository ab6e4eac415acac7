/-!
Looking up a key in a list of pairs, the first of which counts.
-/

set_option autoImplicit false

namespace Classpath

variable {α β : Type} [BEq α] [LawfulBEq α] {key other : α} {value : β} {pairs : List (α × β)}

theorem mem_of_lookup (found : pairs.lookup key = some value) : (key, value) ∈ pairs := by
  obtain ⟨front, back, split, _⟩ := List.lookup_eq_some_iff.mp found
  simp [split]

theorem lookup_cons_of_ne (apart : other ≠ key) (value : β) (pairs : List (α × β)) :
    ((key, value) :: pairs).lookup other = pairs.lookup other := by
  rw [List.lookup_cons, beq_eq_false_iff_ne.mpr apart]

/-- Where no key is there twice, every pair is found. -/
theorem lookup_of_mem (distinct : (pairs.map Prod.fst).Nodup) (among : (key, value) ∈ pairs) :
    pairs.lookup key = some value := by
  induction pairs with
  | nil => cases among
  | cons first rest ih =>
      obtain ⟨absent, restDistinct⟩ := List.nodup_cons.mp distinct
      rcases List.mem_cons.mp among with rfl | later
      · exact List.lookup_cons_self
      · have apart : key ≠ first.1 := by
          intro same
          exact absent (same ▸ List.mem_map_of_mem later)
        exact (lookup_cons_of_ne apart first.2 rest).trans (ih restDistinct later)

theorem lookup_cons_eq_none (absent : ((key, value) :: pairs).lookup other = none) :
    other ≠ key ∧ pairs.lookup other = none := by
  by_cases same : other = key
  · rw [same, List.lookup_cons_self] at absent
    cases absent
  · rw [lookup_cons_of_ne same] at absent
    exact ⟨same, absent⟩

end Classpath
