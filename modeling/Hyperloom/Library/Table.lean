import Mathlib.Data.List.Nodup
import Mathlib.Algebra.Order.BigOperators.Group.List
import Mathlib.Algebra.Order.Group.Nat
import Mathlib.Algebra.GroupWithZero.Nat

/-!
# Tables with a primary key

A table is the list of its rows in insertion order, together with the proof
that no two of them share a key.  The operations are the statements a
relational store offers on one table: lookup by key, insert, insert or
replace, upsert, delete and update by predicate.  Every one is characterised
by the rows it leaves, so later proofs argue about membership only.
-/

namespace Hyperloom
namespace Library

/-- Rows without a repeated key, in insertion order. -/
structure Table (row : Type) {key : Type} (keyOf : row -> key) where
  rows : List row
  unique : (rows.map keyOf).Nodup

namespace Table

variable {row key : Type} {keyOf : row -> key}

instance : Membership row (Table row keyOf) where
  mem t r := r ∈ t.rows

instance [DecidableEq row] (r : row) (t : Table row keyOf) : Decidable (r ∈ t) :=
  inferInstanceAs (Decidable (r ∈ t.rows))

variable {t : Table row keyOf} {r : row}

theorem mem_rows : r ∈ t.rows <-> r ∈ t := Iff.rfl

def empty : Table row keyOf where
  rows := []
  unique := List.nodup_nil

@[simp] theorem not_mem_empty (r : row) : ¬ r ∈ (empty : Table row keyOf) := List.not_mem_nil

variable {s : row}

theorem eq_of_key_eq (hr : r ∈ t) (hs : s ∈ t) (h : keyOf r = keyOf s) : r = s :=
  List.inj_on_of_nodup_map t.unique hr hs h

/-!
## Deletion and update by predicate
-/

def deleteWhere (t : Table row keyOf) (p : row -> Bool) : Table row keyOf where
  rows := t.rows.filter (fun r => !p r)
  unique := t.unique.sublist (List.filter_sublist.map keyOf)

@[simp] theorem mem_deleteWhere {p : row -> Bool} :
    r ∈ t.deleteWhere p <-> r ∈ t ∧ p r = false := by
  show r ∈ t.rows.filter (fun r => !p r) <-> r ∈ t.rows ∧ p r = false
  simp

/-- Rewrite every row the predicate accepts, keeping its key. -/
def updateWhere (t : Table row keyOf) (p : row -> Bool) (f : row -> row)
    (hf : forall r, keyOf (f r) = keyOf r) : Table row keyOf where
  rows := t.rows.map (fun r => if p r then f r else r)
  unique := by
    have hkeys : (t.rows.map (fun r => if p r then f r else r)).map keyOf = t.rows.map keyOf := by
      rw [List.map_map]
      apply List.map_congr_left
      intro r _
      by_cases hp : p r
      · simp [hp, hf]
      · simp [hp]
    rw [hkeys]
    exact t.unique

theorem mem_updateWhere {t : Table row keyOf} {p : row -> Bool}
    {f : row -> row} {hf : forall r, keyOf (f r) = keyOf r} {r : row} :
    r ∈ t.updateWhere p f hf <->
      (r ∈ t ∧ p r = false) ∨ exists old, old ∈ t ∧ p old = true ∧ r = f old := by
  show r ∈ t.rows.map (fun r => if p r then f r else r) <-> _
  rw [List.mem_map]
  constructor
  · intro h
    rcases h with ⟨old, hold, hr⟩
    cases hp : p old with
    | true =>
      rw [if_pos hp] at hr
      exact Or.inr ⟨old, hold, hp, hr.symm⟩
    | false =>
      rw [hp] at hr
      rw [← hr]
      exact Or.inl ⟨hold, hp⟩
  · intro h
    rcases h with ⟨hr, hp⟩ | ⟨old, hold, hp, hr⟩
    · exact ⟨r, hr, by rw [hp, if_neg Bool.false_ne_true]⟩
    · exact ⟨old, hold, by rw [if_pos hp, hr]⟩

/-!
## Totals

The sum of a weight over the rows, which counts rows where the weight is 0 or 1.
-/

def total (t : Table row keyOf) (weight : row -> Nat) : Nat := (t.rows.map weight).sum

theorem total_le_total {w v : row -> Nat} (h : forall r, r ∈ t -> w r ≤ v r) :
    t.total w ≤ t.total v :=
  List.sum_le_sum h

theorem total_toNat (t : Table row keyOf) (p : row -> Bool) :
    t.total (fun r => (p r).toNat) = (t.rows.filter p).length := by
  unfold total
  induction t.rows with
  | nil => rfl
  | cons r rest ih =>
    rw [List.map_cons, List.sum_cons, ih]
    cases hp : p r with
    | true => simp [hp, Nat.add_comm]
    | false => simp [hp]

variable {f : row -> row} {hf : forall r, keyOf (f r) = keyOf r}

theorem total_updateWhere {p : row -> Bool} {weight : row -> Nat} :
    (t.updateWhere p f hf).total weight = t.total (fun r => weight (if p r then f r else r)) := by
  unfold total updateWhere
  rw [List.map_map]
  rfl

theorem le_total (hr : r ∈ t) (weight : row -> Nat) : weight r ≤ t.total weight :=
  List.single_le_sum (fun _ _ => Nat.zero_le _) _ (List.mem_map_of_mem hr)

theorem exists_of_total_pos (weight : row -> Nat) (h : 0 < t.total weight) :
    exists r, r ∈ t ∧ 0 < weight r := by
  by_contra hno
  have hzero : forall n, n ∈ t.rows.map weight -> n = 0 := by
    intro n hn
    rcases List.mem_map.mp hn with ⟨r, hr, rfl⟩
    exact Nat.eq_zero_of_not_pos fun hpos => hno ⟨r, hr, hpos⟩
  have hsum : t.total weight = 0 := List.sum_eq_zero hzero
  lia

theorem mem_of_total_pos [DecidableEq row]
    (h : 0 < t.total fun other => if other = r then 1 else 0) : r ∈ t := by
  rcases exists_of_total_pos _ h with ⟨other, hother, hpos⟩
  by_cases heq : other = r
  · rw [← heq]
    exact hother
  · rw [if_neg heq] at hpos
    exact absurd hpos (Nat.lt_irrefl 0)

/-!
## Lookup and insertion by key
-/

variable [DecidableEq key]

def find? (t : Table row keyOf) (k : key) : Option row := t.rows.find? (fun r => keyOf r = k)

variable {k : key}

theorem find?_eq_some : t.find? k = some r <-> r ∈ t ∧ keyOf r = k := by
  constructor
  · intro h
    exact ⟨List.mem_of_find?_eq_some h, by simpa using List.find?_some h⟩
  · intro h
    rcases h with ⟨hmem, hkey⟩
    cases hfound : t.find? k with
    | none =>
      have hnone := List.find?_eq_none.mp hfound r hmem
      simp [hkey] at hnone
    | some s =>
      have hs : keyOf s = k := by simpa using List.find?_some hfound
      have heq : s = r := eq_of_key_eq (List.mem_of_find?_eq_some hfound) hmem (hs.trans hkey.symm)
      rw [heq]

theorem find?_eq_none : t.find? k = none <-> forall r, r ∈ t -> keyOf r ≠ k := by
  rw [find?]
  simp [mem_rows]

def updateKey (t : Table row keyOf) (k : key) (f : row -> row)
    (hf : forall r, keyOf (f r) = keyOf r) : Table row keyOf :=
  t.updateWhere (fun r => keyOf r = k) f hf

theorem mem_updateKey (hr : r ∈ t) (hk : keyOf r = k) :
    s ∈ t.updateKey k f hf <-> s = f r ∨ (s ∈ t ∧ keyOf s ≠ k) := by
  unfold updateKey
  rw [mem_updateWhere, or_comm, decide_eq_false_iff_not]
  apply or_congr_left
  constructor
  · intro h
    rcases h with ⟨old, hold, hkey, rfl⟩
    have hold_eq : old = r := eq_of_key_eq hold hr ((of_decide_eq_true hkey).trans hk.symm)
    rw [hold_eq]
  · intro hs
    exact ⟨r, hr, decide_eq_true hk, hs⟩

theorem find?_updateKey {k' : key} :
    (t.updateKey k f hf).find? k' = if k' = k then (t.find? k').map f else t.find? k' := by
  cases hfound : t.find? k' with
  | none =>
    have habsent := find?_eq_none.mp hfound
    have hnone : (t.updateKey k f hf).find? k' = none := by
      rw [find?_eq_none]
      intro s hs
      rcases mem_updateWhere.mp hs with ⟨hs, _⟩ | ⟨old, hold, _, rfl⟩
      · exact habsent s hs
      · rw [hf]
        exact habsent old hold
    rw [hnone]
    simp
  | some r =>
    rcases find?_eq_some.mp hfound with ⟨hr, hkey⟩
    by_cases hk : k' = k
    · rw [if_pos hk, Option.map_some, find?_eq_some]
      exact ⟨(mem_updateKey hr (hkey.trans hk)).mpr (Or.inl rfl), (hf r).trans hkey⟩
    · rw [if_neg hk, find?_eq_some]
      have hne : keyOf r ≠ k := by
        rw [hkey]
        exact hk
      exact ⟨mem_updateWhere.mpr (Or.inl ⟨hr, decide_eq_false hne⟩), hkey⟩

def insertOrReplace (t : Table row keyOf) (r : row) : Table row keyOf where
  rows := t.rows.filter (fun old => keyOf old ≠ keyOf r) ++ [r]
  unique := by
    rw [List.map_append, List.nodup_append]
    refine ⟨t.unique.sublist (List.filter_sublist.map keyOf), by simp, ?_⟩
    intro k hk k' hk' heq
    rw [List.mem_map] at hk
    rcases hk with ⟨old, hold, rfl⟩
    have hne : keyOf old ≠ keyOf r := by
      simpa using (List.mem_filter.mp hold).right
    have hk'r : k' = keyOf r := by simpa using hk'
    exact hne (heq.trans hk'r)

@[simp] theorem mem_insertOrReplace :
    s ∈ t.insertOrReplace r <-> s = r ∨ (s ∈ t ∧ keyOf s ≠ keyOf r) := by
  show s ∈ t.rows.filter (fun old => keyOf old ≠ keyOf r) ++ [r] <->
    s = r ∨ (s ∈ t.rows ∧ keyOf s ≠ keyOf r)
  rw [List.mem_append, List.mem_filter]
  constructor
  · intro h
    rcases h with ⟨hs, hne⟩ | hs
    · exact Or.inr ⟨hs, by simpa using hne⟩
    · exact Or.inl (by simpa using hs)
  · intro h
    rcases h with hs | ⟨hs, hne⟩
    · exact Or.inr (by simp [hs])
    · exact Or.inl ⟨hs, by simpa using hne⟩

def insertOrReplaceAll (t : Table row keyOf) (rs : List row) : Table row keyOf :=
  rs.foldl insertOrReplace t

theorem mem_insertOrReplaceAll {rs : List row} (hkeys : (rs.map keyOf).Nodup) :
    s ∈ t.insertOrReplaceAll rs <-> s ∈ rs ∨ (s ∈ t ∧ forall r, r ∈ rs -> keyOf s ≠ keyOf r) := by
  induction rs generalizing t with
  | nil =>
    simp [insertOrReplaceAll]
  | cons r rest ih =>
    rw [List.map_cons, List.nodup_cons] at hkeys
    have hfresh : forall r', r' ∈ rest -> keyOf r ≠ keyOf r' := by
      intro r' hr' heq
      exact hkeys.left (List.mem_map.mpr ⟨r', hr', heq.symm⟩)
    show s ∈ (t.insertOrReplace r).insertOrReplaceAll rest <-> _
    rw [ih hkeys.right, mem_insertOrReplace, List.mem_cons]
    constructor
    · intro h
      rcases h with hs | ⟨hs | ⟨hs, hne⟩, hrest⟩
      · exact Or.inl (Or.inr hs)
      · exact Or.inl (Or.inl hs)
      · exact Or.inr ⟨hs, by simpa using ⟨hne, hrest⟩⟩
    · intro h
      rcases h with (hs | hs) | ⟨hs, hne⟩
      · subst hs
        exact Or.inr ⟨Or.inl rfl, hfresh⟩
      · exact Or.inl hs
      · exact Or.inr ⟨Or.inr ⟨hs, hne r (by simp)⟩, fun r' hr' => hne r' (by simp [hr'])⟩

/-- Insert a row whose key is free; refused when it is taken. -/
def insertNew (t : Table row keyOf) (r : row) : Option (Table row keyOf) :=
  if h : keyOf r ∈ t.rows.map keyOf then none
  else
    some
      { rows := t.rows ++ [r]
        unique := by
          rw [List.map_append, List.nodup_append]
          refine ⟨t.unique, by simp, ?_⟩
          intro k hk k' hk' heq
          have hk'r : k' = keyOf r := by simpa using hk'
          rw [heq, hk'r] at hk
          exact h hk }

theorem mem_insertNew {t' : Table row keyOf} (h : t.insertNew r = some t') :
    s ∈ t' <-> s = r ∨ s ∈ t := by
  unfold insertNew at h
  split at h
  · cases h
  · cases h
    show s ∈ t.rows ++ [r] <-> s = r ∨ s ∈ t.rows
    rw [List.mem_append, List.mem_singleton]
    exact Or.comm

theorem insertNew_eq_none : t.insertNew r = none <-> exists s, s ∈ t ∧ keyOf s = keyOf r := by
  unfold insertNew
  split
  · rename_i h
    have hs := List.mem_map.mp h
    exact iff_of_true rfl hs
  · rename_i h
    constructor
    · nofun
    · intro hs
      rcases hs with ⟨s, hs, hkey⟩
      exact absurd (List.mem_map.mpr ⟨s, hs, hkey⟩) h

def upsert (t : Table row keyOf) (r : row) (f : row -> row)
    (hf : forall old, keyOf (f old) = keyOf old) : Table row keyOf :=
  match t.insertNew r with
  | some t' => t'
  | none => t.updateWhere (fun old => keyOf old = keyOf r) f hf

theorem mem_upsert {hf : forall old, keyOf (f old) = keyOf old} :
    s ∈ t.upsert r f hf <-> (s ∈ t ∧ keyOf s ≠ keyOf r) ∨
      (exists old, old ∈ t ∧ keyOf old = keyOf r ∧ s = f old) ∨
      (s = r ∧ forall old, old ∈ t -> keyOf old ≠ keyOf r) := by
  unfold upsert
  cases hins : t.insertNew r with
  | some t' =>
    have hfree : forall old, old ∈ t -> keyOf old ≠ keyOf r := by
      intro old hold hkey
      have hnone := insertNew_eq_none.mpr ⟨old, hold, hkey⟩
      rw [hins] at hnone
      cases hnone
    rw [mem_insertNew hins]
    constructor
    · intro hcase
      rcases hcase with hs | hs
      · exact Or.inr (Or.inr ⟨hs, hfree⟩)
      · exact Or.inl ⟨hs, hfree s hs⟩
    · intro hcase
      rcases hcase with ⟨hs, _⟩ | ⟨old, hold, hkey, _⟩ | ⟨hs, _⟩
      · exact Or.inr hs
      · exact absurd hkey (hfree old hold)
      · exact Or.inl hs
  | none =>
    rcases insertNew_eq_none.mp hins with ⟨taken, htaken, htakenKey⟩
    have htaken_only : ¬ (s = r ∧ forall old, old ∈ t -> keyOf old ≠ keyOf r) :=
      fun h => h.right taken htaken htakenKey
    rw [mem_updateWhere, decide_eq_false_iff_not, or_iff_left htaken_only]
    simp only [decide_eq_true_eq]

/-!
## Totals after an update or an insertion
-/

omit [DecidableEq key] in
theorem exists_split (hr : r ∈ t) (hk : keyOf r = k) :
    exists before after, t.rows = before ++ r :: after ∧
      (forall s, s ∈ before -> keyOf s ≠ k) ∧ forall s, s ∈ after -> keyOf s ≠ k := by
  rcases List.append_of_mem hr with ⟨before, after, hrows⟩
  have hunique := t.unique
  rw [hrows, List.map_append, List.map_cons, List.nodup_append, List.nodup_cons] at hunique
  refine ⟨before, after, hrows, ?_, ?_⟩
  · intro s hs heq
    exact hunique.2.2 (keyOf s) (List.mem_map_of_mem hs) (keyOf r) List.mem_cons_self
      (heq.trans hk.symm)
  · intro s hs heq
    apply hunique.2.1.1
    rw [hk, ← heq]
    exact List.mem_map_of_mem hs

theorem total_updateKey (hf : forall r, keyOf (f r) = keyOf r) (hr : r ∈ t)
    (hk : keyOf r = k) (weight : row -> Nat) :
    (t.updateKey k f hf).total weight + weight r = t.total weight + weight (f r) := by
  rcases exists_split hr hk with ⟨before, after, hrows, hbefore, hafter⟩
  have hkept : forall rows : List row, (forall s, s ∈ rows -> keyOf s ≠ k) ->
      (rows.map fun s => weight (if keyOf s = k then f s else s)) = rows.map weight := by
    intro rows hne
    apply List.map_congr_left
    intro s hs
    rw [if_neg (hne s hs)]
  unfold updateKey
  rw [total_updateWhere]
  simp only [decide_eq_true_eq]
  unfold total
  rw [hrows, List.map_append, List.map_cons, hkept before hbefore, hkept after hafter]
  simp only [List.map_append, List.map_cons, List.sum_append, List.sum_cons]
  lia

theorem total_insertNew {t' : Table row keyOf} (h : t.insertNew r = some t')
    (weight : row -> Nat) : t'.total weight = t.total weight + weight r := by
  unfold insertNew at h
  split at h
  · cases h
  · cases h
    simp [total]

/-!
## Deletion by key
-/

def deleteKey (t : Table row keyOf) (k : key) : Table row keyOf :=
  t.deleteWhere (fun r => keyOf r = k)

@[simp] theorem mem_deleteKey : r ∈ t.deleteKey k <-> r ∈ t ∧ keyOf r ≠ k := by
  unfold deleteKey
  rw [mem_deleteWhere, decide_eq_false_iff_not]

@[simp] theorem find?_deleteKey_self : (t.deleteKey k).find? k = none := by
  rw [find?_eq_none]
  intro r hr
  exact (mem_deleteKey.mp hr).right

theorem find?_deleteKey_of_none {k' : key} (h : t.find? k' = none) :
    (t.deleteKey k).find? k' = none := by
  rw [find?_eq_none] at h ⊢
  intro r hr
  exact h r (mem_deleteKey.mp hr).left

theorem deleteKey_of_find?_eq_none (h : t.find? k = none) : t.deleteKey k = t := by
  have hrows : (t.rows.filter fun r => !decide (keyOf r = k)) = t.rows := by
    rw [List.filter_eq_self]
    intro r hr
    simp [find?_eq_none.mp h r hr]
  cases t with
  | mk rows unique =>
    unfold deleteKey deleteWhere
    congr

theorem total_deleteKey (hr : r ∈ t) (hk : keyOf r = k) (weight : row -> Nat) :
    (t.deleteKey k).total weight + weight r = t.total weight := by
  rcases exists_split hr hk with ⟨before, after, hrows, hbefore, hafter⟩
  have hkept : forall rows : List row, (forall s, s ∈ rows -> keyOf s ≠ k) ->
      (rows.filter fun s => !decide (keyOf s = k)) = rows := by
    intro rows hne
    rw [List.filter_eq_self]
    intro s hs
    simp [hne s hs]
  unfold deleteKey deleteWhere total
  dsimp only
  rw [hrows, List.filter_append, List.filter_cons_of_neg (by simp [hk]),
    hkept before hbefore, hkept after hafter]
  simp only [List.map_append, List.map_cons, List.sum_append, List.sum_cons]
  lia

end Table

end Library
end Hyperloom
