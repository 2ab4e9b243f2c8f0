import Mathlib.Data.List.DropRight

/-!
# Whitespace

Python's `str.strip` and `str.split` take off, and split at, every character
that `str.isspace` accepts, not only the ASCII ones.
-/

namespace Hyperloom
namespace Library

def isSpace (c : Char) : Bool :=
  decide (9 ≤ c.toNat ∧ c.toNat ≤ 13 ∨ 28 ≤ c.toNat ∧ c.toNat ≤ 32 ∨
    0x2000 ≤ c.toNat ∧ c.toNat ≤ 0x200A ∨
    c.toNat ∈ [0x85, 0xA0, 0x1680, 0x2028, 0x2029, 0x202F, 0x205F, 0x3000])

def stripChars (text : List Char) : List Char := (text.dropWhile isSpace).rdropWhile isSpace

variable (text : String)

def strip : String := String.ofList (stripChars text.toList)

def words : List String :=
  ((text.toList.splitOnP isSpace).filter fun word => !word.isEmpty).map String.ofList

theorem dropWhile_rdropWhile {α : Type} (p : α -> Bool) (l : List α) :
    (((l.dropWhile p).rdropWhile p).dropWhile p) = (l.dropWhile p).rdropWhile p := by
  cases hrest : (l.dropWhile p).rdropWhile p with
  | nil => rfl
  | cons a rest =>
    -- what is left of the list starts as the list does
    have hfirst : (l.dropWhile p).head? = some a := by
      have hstarts := List.rdropWhile_prefix p (l.dropWhile p)
      rw [hrest] at hstarts
      rcases hstarts with ⟨tail, htail⟩
      rw [← htail]
      rfl
    have ha : p a = false := by
      have hhead := List.head?_dropWhile_not p l
      rw [hfirst] at hhead
      exact hhead
    rw [List.dropWhile_cons_of_neg (by simp [ha])]

theorem strip_strip : strip (strip text) = strip text := by
  unfold strip stripChars
  rw [String.toList_ofList, dropWhile_rdropWhile, List.rdropWhile_idempotent]

end Library
end Hyperloom
