import Mathlib.Data.List.Dedup
import Mathlib.Data.List.Sort
import Mathlib.Data.String.Basic

/-!
# Dictionaries as association lists

The first entry of a name is the one in force.
-/

namespace Hyperloom
namespace Library

variable {α : Type} {name : String}

theorem mem_of_lookup {values : List (String × α)} {value : α}
    (h : values.lookup name = some value) : (name, value) ∈ values := by
  rcases List.lookup_eq_some_iff.1 h with ⟨front, back, rfl, _⟩
  exact List.mem_append_right front (.head back)

theorem lookup_eq_none_of_not_mem {values : List (String × α)}
    (h : name ∉ values.map Prod.fst) : values.lookup name = none := by
  rw [List.lookup_eq_none_iff]
  intro entry hentry
  exact bne_iff_ne.2 fun heq => h (heq ▸ List.mem_map_of_mem hentry)

/-- The names of two dictionaries, each once and in order. -/
def unionNames (old new : List (String × α)) : List String :=
  (old.map Prod.fst ++ new.map Prod.fst).dedup.insertionSort (· ≤ ·)

theorem mem_unionNames_of_lookup_ne {old new : List (String × α)}
    (h : old.lookup name ≠ new.lookup name) : name ∈ unionNames old new := by
  refine (List.mem_insertionSort _).2 (List.mem_dedup.2 ?_)
  by_contra hout
  rw [List.mem_append, not_or] at hout
  exact h ((lookup_eq_none_of_not_mem hout.1).trans (lookup_eq_none_of_not_mem hout.2).symm)

end Library
end Hyperloom
