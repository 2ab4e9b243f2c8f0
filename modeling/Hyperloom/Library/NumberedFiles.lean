import Mathlib.Data.List.MinMax

/-!
# Numbered files created once

A folder of files named by a name and a number.  A file is created complete or
not at all, never changed and never removed, so several writers can agree on a
sequence of values: each reads the latest number of a name, computes a value
from what it found there, and creates the next number.  Whoever finds the
number taken has lost the race and reads again.
-/

namespace Hyperloom
namespace Library

structure NumberedFile (κ α : Type) where
  name : κ
  number : Nat
  value : α

/-- The files in the order they were created. -/
abbrev Folder (κ α : Type) := List (NumberedFile κ α)

namespace Folder

variable {κ α : Type} [DecidableEq κ] (folder : Folder κ α)

def load (name : κ) (number : Nat) : Option α :=
  (folder.find? fun file =>
    decide (file.name = name) && decide (file.number = number)).map NumberedFile.value

variable (file : NumberedFile κ α)

def publishOnce : Option (Folder κ α) :=
  match folder.load file.name file.number with
  | some _ => none
  | none => some (folder ++ [file])

variable (listed : Nat -> Bool) (name : κ)

def numbers : List Nat :=
  (folder.filter fun file =>
    decide (file.name = name) && listed file.number).map NumberedFile.number

def latest : Option Nat :=
  (folder.numbers listed name).max?

def names : List κ := (folder.map NumberedFile.name).dedup

/-!
## Reading after a publication
-/

theorem load_append (number : Nat) :
    load (folder ++ [file]) name number = (folder.load name number).or
        (if file.name = name ∧ file.number = number then some file.value else none) := by
  unfold load
  rw [List.find?_append]
  cases folder.find? fun file => decide (file.name = name) && decide (file.number = number) with
  | some found => rfl
  | none =>
    by_cases hfile : file.name = name ∧ file.number = number
    · simp [hfile]
    · have hno : (decide (file.name = name) && decide (file.number = number)) = false := by
        simpa using hfile
      simp [hfile]

variable {folder published : Folder κ α} {file : NumberedFile κ α} {name : κ} {number : Nat}
  {value : α}

section

variable (h : folder.publishOnce file = some published)

include h

theorem publishOnce_eq_some :
    folder.load file.name file.number = none ∧ published = folder ++ [file] := by
  unfold publishOnce at h
  cases hload : folder.load file.name file.number with
  | some value =>
    rw [hload] at h
    cases h
  | none =>
    rw [hload] at h
    exact ⟨rfl, (Option.some.inj h).symm⟩

theorem load_publishOnce_of_some
    (hload : folder.load name number = some value) : published.load name number = some value := by
  rw [(publishOnce_eq_some h).right, load_append, hload]
  rfl

theorem load_publishOnce_cases (hload : published.load name number = some value) :
    folder.load name number = some value ∨
      (file.name = name ∧ file.number = number ∧ file.value = value) := by
  rw [(publishOnce_eq_some h).right, load_append] at hload
  cases hbefore : folder.load name number with
  | some before =>
    rw [hbefore] at hload
    exact Or.inl hload
  | none =>
    rw [hbefore] at hload
    by_cases hfile : file.name = name ∧ file.number = number
    · rw [if_pos hfile] at hload
      exact Or.inr ⟨hfile.left, hfile.right, Option.some.inj hload⟩
    · rw [if_neg hfile] at hload
      cases hload

end

variable {listed : Nat -> Bool}

theorem mem_numbers :
    number ∈ folder.numbers listed name <->
      listed number = true ∧ exists value, folder.load name number = some value := by
  unfold numbers load
  rw [List.mem_map]
  constructor
  · intro h
    rcases h with ⟨file, hfile, hnumber⟩
    rcases List.mem_filter.mp hfile with ⟨hin, hkept⟩
    simp only [Bool.and_eq_true] at hkept
    rw [hnumber] at hkept
    have hfound : (folder.find? fun file =>
        decide (file.name = name) && decide (file.number = number)).isSome := by
      rw [List.find?_isSome]
      exact ⟨file, hin, by simp [hkept.left, hnumber]⟩
    rcases Option.isSome_iff_exists.mp hfound with ⟨found, hfound⟩
    exact ⟨hkept.right, found.value, by rw [hfound]; rfl⟩
  · intro h
    rcases h with ⟨hlisted, value, hload⟩
    rcases Option.map_eq_some_iff.mp hload with ⟨file, hfound, _⟩
    have hfile := List.find?_some hfound
    simp only [Bool.and_eq_true, decide_eq_true_eq] at hfile
    refine ⟨file, List.mem_filter.mpr ⟨List.mem_of_find?_eq_some hfound, ?_⟩, hfile.right⟩
    rw [hfile.right, hlisted]
    simp [hfile.left]

theorem exists_load_of_latest (h : folder.latest listed name = some number) :
    exists value, folder.load name number = some value :=
  (mem_numbers.mp (List.max?_mem h)).right

theorem latest_append_of_hidden (h : file.name = name -> listed file.number = false) :
    latest (folder ++ [file]) listed name = folder.latest listed name := by
  have hnone : ([file].filter fun file =>
      decide (file.name = name) && listed file.number) = [] := by
    rw [List.filter_eq_nil_iff]
    intro other hother
    rw [List.mem_singleton.mp hother]
    by_cases hname : file.name = name
    · simp [h hname]
    · simp [hname]
  unfold latest numbers
  rw [List.filter_append, hnone, List.append_nil]

/-!
## Chains

The numbers of every name start at one and leave none out, and each file
stands in a given relation to the one before it.
-/

/-- Every file follows the one before it: `R` relates a number and its file to
the file of the number before, if there is one, and a number above one has
one. -/
structure Chain (R : Nat -> Option α -> α -> Prop) (folder : Folder κ α) : Prop where
  fromOne : forall name, folder.load name 0 = none
  follows : forall name n value, folder.load name (n + 1) = some value ->
    R (n + 1) (folder.load name n) value
  unbroken : forall name n value, folder.load name (n + 1) = some value ->
    n ≠ 0 -> exists before, folder.load name n = some before

theorem Chain.empty (R : Nat -> Option α -> α -> Prop) : Chain R ([] : Folder κ α) := by
  constructor
  · intro name
    rfl
  · nofun
  · nofun

variable {R : Nat -> Option α -> α -> Prop} {n : Nat}

section

variable (h : Chain R folder)

include h

theorem Chain.exists_load (hload : folder.load name n = some value) {k : Nat} (hk : 1 ≤ k)
    (hkn : k ≤ n) : exists before, folder.load name k = some before := by
  -- Downwards from the file, one predecessor at a time.
  induction n generalizing value with
  | zero =>
    rw [h.fromOne name] at hload
    cases hload
  | succ n ih =>
    by_cases htop : k = n + 1
    · rw [htop]
      exact ⟨value, hload⟩
    · have hn : n ≠ 0 := by lia
      rcases h.unbroken name n value hload hn with ⟨before, hbefore⟩
      exact ih hbefore (by lia)

theorem Chain.latest_of_load (hload : folder.load name n = some value)
    (hnext : folder.load name (n + 1) = none) (hlisted : listed n = true) :
    folder.latest listed name = some n := by
  apply List.max?_eq_some_iff.mpr
  refine ⟨mem_numbers.mpr ⟨hlisted, value, hload⟩, ?_⟩
  intro number hnumber
  rcases (mem_numbers.mp hnumber).right with ⟨found, hfound⟩
  by_cases hle : number ≤ n
  · exact hle
  · rcases h.exists_load hfound (k := n + 1) (by lia) (by lia) with ⟨between, hbetween⟩
    rw [hnext] at hbetween
    cases hbetween

theorem Chain.latest_publishOnce (hone : 1 ≤ file.number)
    (hpublish : folder.publishOnce file = some published) (hlisted : listed file.number = true) :
    published.latest listed file.name = some file.number := by
  have hfresh := (publishOnce_eq_some hpublish).left
  apply List.max?_eq_some_iff.mpr
  refine ⟨mem_numbers.mpr ⟨hlisted, file.value, ?_⟩, ?_⟩
  · rw [(publishOnce_eq_some hpublish).right, load_append, hfresh]
    simp
  · intro number hnumber
    rcases (mem_numbers.mp hnumber).right with ⟨found, hfound⟩
    rcases load_publishOnce_cases hpublish hfound with hold | hnew
    · by_cases hle : number ≤ file.number
      · exact hle
      · rcases h.exists_load hold hone (by lia) with ⟨between, hbetween⟩
        rw [hfresh] at hbetween
        cases hbetween
    · exact Nat.le_of_eq hnew.right.left.symm

/-- Publishing the number after a file that was read, with a value that
follows it, keeps the chain. -/
theorem Chain.publishOnce {seen : Nat} (hnumber : file.number = seen + 1)
    (hseen : seen ≠ 0 -> exists before, folder.load file.name seen = some before)
    (hR : R (seen + 1) (folder.load file.name seen) file.value)
    (hpublish : folder.publishOnce file = some published) : Chain R published := by
  -- The slots before an existing file and before the new one keep their value.
  have hkeep : forall name n value, published.load name (n + 1) = some value ->
      published.load name n = folder.load name n := by
    intro name n value hload
    cases hbefore : folder.load name n with
    | some before => exact load_publishOnce_of_some hpublish hbefore
    | none =>
      cases hafter : published.load name n with
      | none => rfl
      | some after =>
        -- The new file would stand right below an existing one.
        rcases load_publishOnce_cases hpublish hafter with hold | hnew
        · rw [hbefore] at hold
          cases hold
        · rcases load_publishOnce_cases hpublish hload with hold | hagain
          · rcases h.unbroken name n value hold (by lia) with ⟨found, hfound⟩
            rw [hbefore] at hfound
            cases hfound
          · lia
  constructor
  · intro name
    cases hzero : published.load name 0 with
    | none => rfl
    | some value =>
      rcases load_publishOnce_cases hpublish hzero with hold | hnew
      · rw [h.fromOne name] at hold
        cases hold
      · lia
  · intro name n value hload
    rw [hkeep name n value hload]
    rcases load_publishOnce_cases hpublish hload with hold | hnew
    · exact h.follows name n value hold
    · rcases hnew with ⟨rfl, hnum, rfl⟩
      have hn : n = seen := by lia
      rw [hn]
      exact hR
  · intro name n value hload hn
    rw [hkeep name n value hload]
    rcases load_publishOnce_cases hpublish hload with hold | hnew
    · exact h.unbroken name n value hold hn
    · rcases hnew with ⟨rfl, hnum, _⟩
      have hns : n = seen := by lia
      rw [hns]
      exact hseen (by lia)

/-- Where a predicate of the values changes along a chain: the first number
after `m` whose value does not have it, and the one before, up to which all
values have it. -/
theorem Chain.exists_change (P : α -> Prop) {m : Nat}
    {first other : α} (hm : folder.load name m = some first)
    (hn : folder.load name n = some other) (hmn : m < n) (hfirst : P first) (hother : ¬ P other) :
    exists k last next, m ≤ k ∧ k < n ∧ folder.load name k = some last ∧
      folder.load name (k + 1) = some next ∧ ¬ P next ∧
      forall j value, m ≤ j -> j ≤ k -> folder.load name j = some value -> P value := by
  -- On the distance to `n`; either the next value changes or it takes the
  -- place of the first one.
  induction hd : n - m generalizing m first with
  | zero => lia
  | succ d ih =>
    rcases h.exists_load hn (k := m + 1) (by lia) (by lia) with ⟨next, hnext⟩
    by_cases hP : P next
    · have hlt : m + 1 < n := by
        rcases Nat.lt_or_ge (m + 1) n with hlt | hge
        · exact hlt
        · have heq : n = m + 1 := by lia
          rw [heq, hnext] at hn
          rw [← Option.some.inj hn] at hother
          exact absurd hP hother
      rcases ih hnext hlt hP (by lia) with ⟨k, last, after, hmk, hkn, hlast, hafter, hnot, hall⟩
      refine ⟨k, last, after, by lia, hkn, hlast, hafter, hnot, ?_⟩
      intro j value hmj hjk hload
      rcases Nat.lt_or_ge m j with hlt' | hge
      · exact hall j value (by lia) hjk hload
      · have heq : j = m := by lia
        rw [heq, hm] at hload
        rw [← Option.some.inj hload]
        exact hfirst
    · refine ⟨m, first, next, Nat.le_refl m, hmn, hm, hnext, hP, ?_⟩
      intro j value hmj hjm hload
      have heq : j = m := by lia
      rw [heq, hm] at hload
      rw [← Option.some.inj hload]
      exact hfirst

end

end Folder

end Library
end Hyperloom
