import Mathlib.Data.List.Sort

/-!
# Logs with sequence numbers

A log keeps its entries in the order of their sequence numbers and remembers
the last number it gave out, so a number is never given out twice even when
entries are deleted.  Readers take the entries after a position; the lemmas at
the end say what reading a prefix of them covers, and what sorting keeps.
-/

namespace Hyperloom
namespace Library

/-- Entries in strictly increasing order of their sequence numbers, none above
the last number given out. -/
structure SeqLog (entry : Type) (seqOf : entry -> Nat) where
  rows : List entry
  last : Nat
  ordered : rows.Pairwise (fun a b => seqOf a < seqOf b)
  bounded : forall e, e ∈ rows -> seqOf e ≤ last

namespace SeqLog

variable {entry : Type} {seqOf : entry -> Nat}

instance : Membership entry (SeqLog entry seqOf) where
  mem log e := e ∈ log.rows

def empty : SeqLog entry seqOf where
  rows := []
  last := 0
  ordered := List.Pairwise.nil
  bounded := fun _ h => absurd h List.not_mem_nil

variable (log : SeqLog entry seqOf)

def append (make : Nat -> entry) (hmake : forall n, seqOf (make n) = n) : SeqLog entry seqOf where
  rows := log.rows ++ [make (log.last + 1)]
  last := log.last + 1
  ordered := by
    rw [List.pairwise_append]
    refine ⟨log.ordered, List.pairwise_singleton _ _, ?_⟩
    intro e he new hnew
    rw [List.mem_singleton.mp hnew, hmake]
    exact Nat.lt_succ_of_le (log.bounded e he)
  bounded := by
    intro e he
    rcases List.mem_append.mp he with hold | hnew
    · exact Nat.le_succ_of_le (log.bounded e hold)
    · rw [List.mem_singleton.mp hnew, hmake]

/-- Delete the entries a predicate accepts; their numbers stay taken. -/
def deleteWhere (p : entry -> Bool) : SeqLog entry seqOf where
  rows := log.rows.filter (fun e => !p e)
  last := log.last
  ordered := log.ordered.filter _
  bounded := fun e he => log.bounded e (List.mem_of_mem_filter he)

theorem mem_deleteWhere {log : SeqLog entry seqOf} {p : entry -> Bool}
    {e : entry} : e ∈ log.deleteWhere p <-> e ∈ log ∧ p e = false := by
  show e ∈ log.rows.filter (fun e => !p e) <-> e ∈ log.rows ∧ p e = false
  rw [List.mem_filter, Bool.not_eq_true']

theorem nodup_seqs {l : List entry}
    (h : l.Pairwise (fun a b => seqOf a < seqOf b)) : (l.map seqOf).Nodup := by
  rw [List.Nodup, List.pairwise_map]
  exact h.imp (fun hlt => Nat.ne_of_lt hlt)

theorem eq_of_seq_eq {log : SeqLog entry seqOf} {a b : entry} (ha : a ∈ log)
    (hb : b ∈ log) (h : seqOf a = seqOf b) : a = b :=
  List.inj_on_of_nodup_map (nodup_seqs log.ordered) ha hb h

/-!
## Reading in order
-/

theorem mem_of_isPrefix_of_le {read all : List entry}
    (hordered : all.Pairwise (fun a b => seqOf a < seqOf b))
    (hread : read <+: all) {a b : entry} (ha : a ∈ all) (hb : b ∈ read)
    (hle : seqOf a ≤ seqOf b) : a ∈ read := by
  rcases hread with ⟨rest, rfl⟩
  rcases List.mem_append.mp ha with hread | hrest
  · exact hread
  · have hlt := (List.pairwise_append.mp hordered).right.right b hb a hrest
    exact absurd hle (Nat.not_le.mpr hlt)

/-- A prefix shorter than a page, of an ordered list that holds the whole page,
reaches no entry beyond the page. -/
theorem mem_page_of_mem_short {all merged read : List entry} {limit : Nat}
    (hall : all.Pairwise (fun a b => seqOf a < seqOf b))
    (hmerged : merged.Pairwise (fun a b => seqOf a < seqOf b))
    (hpage : forall e, e ∈ all.take limit -> e ∈ merged)
    (hread : read <+: merged) (hshort : read.length < limit) {a b : entry}
    (ha : a ∈ all) (hb : b ∈ read) (hle : seqOf a ≤ seqOf b) : a ∈ all.take limit := by
  rw [← List.take_append_drop limit all] at ha hall
  rcases List.mem_append.mp ha with hin | hout
  · exact hin
  have hsubset : forall e, e ∈ all.take limit -> e ∈ read := by
    intro e he
    have hlt := (List.pairwise_append.mp hall).right.right e he a hout
    exact mem_of_isPrefix_of_le hmerged hread (hpage e he) hb ((Nat.le_of_lt hlt).trans hle)
  have hnodup : (all.take limit).Nodup :=
    List.Nodup.of_map seqOf (nodup_seqs (List.pairwise_append.mp hall).left)
  have hlength := (List.subperm_of_subset hnodup hsubset).length_le
  have hdrop := List.length_pos_of_mem hout
  rw [List.length_take] at hlength
  rw [List.length_drop] at hdrop
  lia

theorem ordered_insertionSort {l : List entry} (h : (l.map seqOf).Nodup) :
    (l.insertionSort (fun a b => seqOf a ≤ seqOf b)).Pairwise (fun a b => seqOf a < seqOf b) := by
  have hperm := List.perm_insertionSort (fun a b => seqOf a ≤ seqOf b) l
  have hdistinct :
      (l.insertionSort (fun a b => seqOf a ≤ seqOf b)).Pairwise (fun a b => seqOf a ≠ seqOf b) := by
    rw [← List.pairwise_map]
    exact (hperm.map seqOf).nodup_iff.mpr h
  have hsorted : (l.insertionSort (fun a b => seqOf a ≤ seqOf b)).Pairwise
      (fun a b => seqOf a ≤ seqOf b) :=
    haveI : Std.Total (fun a b => seqOf a ≤ seqOf b) :=
      ⟨fun a b => Nat.le_total (seqOf a) (seqOf b)⟩
    haveI : IsTrans entry (fun a b => seqOf a ≤ seqOf b) := ⟨fun _ _ _ => Nat.le_trans⟩
    List.pairwise_insertionSort _ l
  exact (hsorted.and hdistinct).imp (fun hab => Nat.lt_of_le_of_ne hab.left hab.right)

end SeqLog

/-!
## Sorting a merged log

Sorting the entries of several logs keeps the entries of one log, or of any
part of it, in the order they stood in when that order is sorted already.
-/

theorem filter_insertionSort {entry : Type} {r : entry -> entry -> Prop} [DecidableRel r]
    {p : entry -> Bool} {l : List entry} (h : (l.filter p).Pairwise r) :
    (l.insertionSort r).filter p = l.filter p := by
  have hkept := (List.sublist_insertionSort h List.filter_sublist).filter p
  simp only [List.filter_filter, Bool.and_self] at hkept
  have hlength := ((List.perm_insertionSort r l).filter p).length_eq
  exact (hkept.eq_of_length hlength.symm).symm

section

variable {entry key : Type} [DecidableEq key] {keyOf : entry -> key}

theorem mem_iff_of_filter_key {l m : List entry}
    (h : forall k, l.filter (keyOf · = k) = m.filter (keyOf · = k)) (e : entry) :
    e ∈ l <-> e ∈ m := by
  have hin : e ∈ l.filter (keyOf · = keyOf e) <-> e ∈ m.filter (keyOf · = keyOf e) := by
    rw [h]
  simpa using hin

variable [PartialOrder key]

/-- Sorted lists with the same entries of every key, in the same order, are the
same list. -/
theorem eq_of_filter_key {l m : List entry} (hl : l.Pairwise fun a b => keyOf a ≤ keyOf b)
    (hm : m.Pairwise fun a b => keyOf a ≤ keyOf b)
    (h : forall k, l.filter (keyOf · = k) = m.filter (keyOf · = k)) : l = m := by
  induction l generalizing m with
  | nil =>
    cases m with
    | nil => rfl
    | cons b m => exact nomatch (mem_iff_of_filter_key h b).mpr List.mem_cons_self
  | cons a l ih =>
    have hmem := mem_iff_of_filter_key h
    cases m with
    | nil => exact nomatch (hmem a).mp List.mem_cons_self
    | cons b m =>
      rcases List.pairwise_cons.mp hl with ⟨hal, hl'⟩
      rcases List.pairwise_cons.mp hm with ⟨hbm, hm'⟩
      have hkey : keyOf a = keyOf b := by
        apply le_antisymm
        · rcases List.mem_cons.mp ((hmem b).mpr List.mem_cons_self) with rfl | hb
          · exact le_refl _
          · exact hal b hb
        · rcases List.mem_cons.mp ((hmem a).mp List.mem_cons_self) with rfl | ha
          · exact le_refl _
          · exact hbm a ha
      have hfirst := h (keyOf a)
      rw [List.filter_cons_of_pos (by simp), List.filter_cons_of_pos (by simp [hkey])] at hfirst
      rcases List.cons.inj hfirst with ⟨rfl, hrest⟩
      refine congrArg (List.cons a) (ih hl' hm' ?_)
      intro k
      by_cases hk : keyOf a = k
      · rw [← hk]
        exact hrest
      · have htail := h k
        rwa [List.filter_cons_of_neg (by simpa using hk),
          List.filter_cons_of_neg (by simpa using hk)] at htail

/-- The sort is stable, so lists sort alike exactly if they have the same
entries of every key in the same order. -/
theorem insertionSort_eq_iff [DecidableLE key] [Std.Total (α := key) (· ≤ ·)] {l m : List entry} :
    l.insertionSort (fun a b => keyOf a ≤ keyOf b) =
        m.insertionSort (fun a b => keyOf a ≤ keyOf b) <->
      forall k, l.filter (keyOf · = k) = m.filter (keyOf · = k) := by
  have htotal : Std.Total fun a b : entry => keyOf a ≤ keyOf b :=
    ⟨fun a b => Std.Total.total (keyOf a) (keyOf b)⟩
  have htrans : IsTrans entry fun a b => keyOf a ≤ keyOf b := ⟨fun _ _ _ => le_trans⟩
  have hstable : forall (l : List entry) (k : key),
      (l.insertionSort fun a b => keyOf a ≤ keyOf b).filter (keyOf · = k) =
        l.filter (keyOf · = k) := by
    intro l k
    apply filter_insertionSort
    apply List.pairwise_of_forall_mem_list
    intro a ha b hb
    rw [of_decide_eq_true (List.mem_filter.mp ha).right,
      of_decide_eq_true (List.mem_filter.mp hb).right]
  constructor
  · intro h k
    rw [← hstable l, ← hstable m, h]
  · intro h
    refine eq_of_filter_key (List.pairwise_insertionSort _ l) (List.pairwise_insertionSort _ m) ?_
    intro k
    rw [hstable, hstable, h]

end

end Library
end Hyperloom
