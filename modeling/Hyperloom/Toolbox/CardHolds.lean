import Hyperloom.Toolbox.LeaseLedger
import Mathlib.Algebra.Order.BigOperators.Group.List

/-!
# What the lease rows say

The starts and ends the blackboard derives are those some row stores, the last
time a toolbox was seen is the time of the latest toolbox row, and a card is
charged up to the first end replayed that brings it back.
-/

namespace Hyperloom
namespace Toolbox

open Blackboard Library

/-!
## The rows replayed
-/

namespace LeaseRows

theorem mem_replayed (rows : LeaseRows) (entry : Entry LeaseDetail) :
    entry ∈ rows.replayed <-> entry ∈ rows :=
  List.mem_insertionSort Entry.SortedBefore

def Has (rows : LeaseRows) (detail : LeaseDetail) : Prop :=
  exists entry, entry ∈ rows ∧ entry.detail = detail

variable {rows : LeaseRows}

theorem mem_leaseEnds {finish : LeaseEnd} (h : finish ∈ rows.leaseEnds) :
    rows.Has (.finish finish) := by
  rcases List.mem_filterMap.mp h with ⟨entry, hentry, hdetail⟩
  refine ⟨entry, (rows.mem_replayed entry).mp hentry, ?_⟩
  cases hd : entry.detail with
  | finish other => simpa [hd] using hdetail
  | _ => simp [hd] at hdetail

variable {entry : Entry LeaseDetail}

theorem mem_addStart {starts : List LeaseStart} {start : LeaseStart}
    (h : start ∈ addStart starts entry) : start ∈ starts ∨ entry.detail = .start start := by
  unfold addStart at h
  cases hd : entry.detail with
  | start other =>
    simp only [hd] at h
    split at h
    · exact Or.inl h
    · rcases mem_concat.mp h with h | rfl
      · exact Or.inl h
      · exact Or.inr rfl
  | _ =>
    simp only [hd] at h
    exact Or.inl h

theorem mem_leaseStarts {start : LeaseStart} (h : start ∈ rows.leaseStarts) :
    rows.Has (.start start) := by
  have hfold : forall (more : LeaseRows) (starts : List LeaseStart),
      start ∈ more.foldl addStart starts -> start ∈ starts ∨ Has more (.start start) := by
    intro more
    induction more with
    | nil =>
      intro starts hmem
      exact Or.inl hmem
    | cons entry more ih =>
      intro starts hmem
      rcases ih _ hmem with hadd | ⟨row, hrow, hdetail⟩
      · rcases mem_addStart hadd with hold | hnew
        · exact Or.inl hold
        · exact Or.inr ⟨entry, List.mem_cons_self, hnew⟩
      · exact Or.inr ⟨row, List.mem_cons_of_mem _ hrow, hdetail⟩
  rcases hfold rows.replayed [] h with hnone | ⟨entry, hentry, hdetail⟩
  · cases hnone
  · exact ⟨entry, (rows.mem_replayed entry).mp hentry, hdetail⟩

theorem has_append {detail : LeaseDetail} (h : Has (rows ++ [entry]) detail) :
    rows.Has detail ∨ entry.detail = detail := by
  rcases h with ⟨row, hrow, hdetail⟩
  rcases mem_concat.mp hrow with hrow | rfl
  · exact Or.inl ⟨row, hrow, hdetail⟩
  · exact Or.inr hdetail

/-!
The last time a toolbox was seen is the time of the latest toolbox row.
-/

section

variable (rows : LeaseRows)

/-- `seen` is the latest time of a toolbox row. -/
def LatestSeen : Option Rat -> Prop
  | none => forall entry, entry ∈ rows -> entry.role ≠ .toolbox
  | some time =>
    (exists entry, entry ∈ rows ∧ entry.role = .toolbox ∧ entry.time = time) ∧
    forall entry, entry ∈ rows -> entry.role = .toolbox -> entry.time ≤ time

theorem see_of_le {seen : Option Rat} (hrole : entry.role = .toolbox)
    (hle : forall time, seen = some time -> time ≤ entry.time) :
    see seen entry = some entry.time := by
  unfold see
  rw [if_pos hrole]
  cases seen with
  | none => simp
  | some time =>
    by_cases hzero : time = 0
    · simp [Option.filter, hzero]
    · simpa [Option.filter, hzero] using hle time rfl

theorem latestSeen_foldl (hsorted : rows.Pairwise fun a b => a.time ≤ b.time) :
    LatestSeen rows (rows.foldl see none) := by
  induction rows using List.reverseRecOn with
  | nil =>
    intro entry hentry
    cases hentry
  | append_singleton rows entry ih =>
    rw [List.pairwise_append] at hsorted
    have hseen := ih hsorted.1
    have hbefore : forall row, row ∈ rows -> row.time ≤ entry.time := by
      intro row hrow
      exact hsorted.2.2 row hrow entry (by simp)
    rw [List.foldl_append, List.foldl_cons]
    by_cases hrole : entry.role = .toolbox
    · rw [see_of_le hrole]
      · refine ⟨⟨entry, by simp, hrole, rfl⟩, ?_⟩
        intro row hrow _
        rcases mem_concat.mp hrow with hrow | rfl
        · exact hbefore row hrow
        · rfl
      · intro time htime
        rw [htime] at hseen
        rcases hseen.1 with ⟨row, hrow, _, rfl⟩
        exact hbefore row hrow
    · have hsee : see (rows.foldl see none) entry = rows.foldl see none := if_neg hrole
      rw [hsee]
      cases hfold : rows.foldl see none with
      | none =>
        rw [hfold] at hseen
        intro row hrow
        rcases mem_concat.mp hrow with hrow | rfl
        · exact hseen row hrow
        · exact hrole
      | some time =>
        rw [hfold] at hseen
        rcases hseen with ⟨⟨row, hrow, hfacts⟩, hlatest⟩
        refine ⟨⟨row, List.mem_append_left _ hrow, hfacts⟩, ?_⟩
        intro other hother hotherRole
        rcases mem_concat.mp hother with hother | rfl
        · exact hlatest other hother hotherRole
        · exact absurd hotherRole hrole

theorem latestSeen_toolboxSeenAt : rows.LatestSeen rows.toolboxSeenAt := by
  have h := latestSeen_foldl rows.replayed (Entry.pairwise_insertionSort_time rows)
  change LatestSeen rows.replayed rows.toolboxSeenAt at h
  cases hseen : rows.toolboxSeenAt with
  | none =>
    rw [hseen] at h
    intro entry hentry
    exact h entry ((rows.mem_replayed entry).mpr hentry)
  | some time =>
    rw [hseen] at h
    rcases h with ⟨⟨row, hrow, hfacts⟩, hlatest⟩
    refine ⟨⟨row, (rows.mem_replayed row).mp hrow, hfacts⟩, ?_⟩
    intro entry hentry
    exact hlatest entry ((rows.mem_replayed entry).mpr hentry)

end

theorem le_toolboxSeenAt (hmem : entry ∈ rows) (hrole : entry.role = .toolbox) :
    exists time, rows.toolboxSeenAt = some time ∧ entry.time ≤ time := by
  have h := rows.latestSeen_toolboxSeenAt
  cases hseen : rows.toolboxSeenAt with
  | none =>
    rw [hseen] at h
    exact absurd hrole (h entry hmem)
  | some time =>
    rw [hseen] at h
    exact ⟨time, rfl, h.2 entry hmem hrole⟩

theorem toolboxSeenAt_append {time : Rat} (h : rows.toolboxSeenAt = some time)
    (entry : Entry LeaseDetail) :
    exists later, toolboxSeenAt (rows ++ [entry]) = some later ∧ time ≤ later := by
  have hlatest := rows.latestSeen_toolboxSeenAt
  rw [h] at hlatest
  rcases hlatest.1 with ⟨row, hrow, hrole, rfl⟩
  exact le_toolboxSeenAt (List.mem_append_left _ hrow) hrole

end LeaseRows

/-!
## The charge
-/

def LeaseEnd.covers (finish : LeaseEnd) (start : LeaseStart) (card : Nat) : Bool :=
  finish.leaseId = start.leaseId && card ∈ finish.cards start

/-- The first end replayed that brings a card back. -/
def recordedEnd (rows : LeaseRows) (start : LeaseStart) (card : Nat) : Option LeaseEnd :=
  rows.leaseEnds.find? fun finish => finish.covers start card

namespace CardHold

@[simp]
theorem giveBack_start (hold : CardHold) (endedAt : Rat) (card : Nat) :
    (hold.giveBack endedAt card).start = hold.start := by
  unfold giveBack
  split <;> rfl

variable {hold : CardHold} {card : Nat}

@[simp]
theorem foldl_giveBack_start (hold : CardHold) (endedAt : Rat) (cards : List Nat) :
    (cards.foldl (fun hold card => hold.giveBack endedAt card) hold).start = hold.start := by
  induction cards generalizing hold with
  | nil => rfl
  | cons card cards ih => rw [List.foldl_cons, ih, giveBack_start]

@[simp]
theorem apply_start (hold : CardHold) (finish : LeaseEnd) :
    (hold.apply finish).start = hold.start := by
  unfold apply
  split
  · dsimp only
    split
    · exact foldl_giveBack_start hold _ _
    · exact foldl_giveBack_start hold _ _
  · rfl

@[simp]
theorem foldl_apply_start (hold : CardHold) (ends : List LeaseEnd) :
    (ends.foldl apply hold).start = hold.start := by
  induction ends generalizing hold with
  | nil => rfl
  | cons finish ends ih => rw [List.foldl_cons, ih, apply_start]

section

variable (hcard : card ∈ hold.start.cardIds)

include hcard

theorem returned_giveBack (endedAt : Rat) (other : Nat) :
    (hold.giveBack endedAt other).returned card =
      if card = other then some ((hold.returned card).getD endedAt)
      else hold.returned card := by
  unfold giveBack
  by_cases heq : card = other
  · rw [← heq, if_pos hcard, if_pos rfl]
    exact Function.update_self ..
  · split
    · exact Function.update_of_ne heq _ _
    · rfl

theorem returned_foldl_giveBack (endedAt : Rat) (cards : List Nat) :
    (cards.foldl (fun hold card => hold.giveBack endedAt card) hold).returned card =
      if card ∈ cards then some ((hold.returned card).getD endedAt)
      else hold.returned card := by
  induction cards generalizing hold with
  | nil => simp
  | cons other cards ih =>
    rw [List.foldl_cons, ih (by simpa using hcard), returned_giveBack hcard]
    by_cases heq : card = other
    · simp [heq]
    · simp [heq]

theorem returned_apply (finish : LeaseEnd) :
    (hold.apply finish).returned card = (hold.returned card).or
        (if finish.covers hold.start card then some finish.endedAt
          else none) := by
  unfold apply LeaseEnd.covers
  by_cases hid : finish.leaseId = hold.start.leaseId
  · have hback := returned_foldl_giveBack hcard finish.endedAt (finish.cards hold.start)
    have hfold : ((finish.cards hold.start).foldl
        (fun hold card => hold.giveBack finish.endedAt card) hold).returned
          card = (hold.returned card).or (if card ∈ finish.cards hold.start then some finish.endedAt
              else none) := by
      rw [hback]
      cases hold.returned card with
      | _ => simp
    simp only [hid, if_true, decide_true, Bool.true_and, decide_eq_true_eq]
    split
    · exact hfold
    · exact hfold
  · simp [hid]

theorem returned_foldl_apply (ends : List LeaseEnd) :
    (ends.foldl apply hold).returned card = (hold.returned card).or
        ((ends.find? fun finish => finish.covers hold.start card).map LeaseEnd.endedAt) := by
  induction ends generalizing hold with
  | nil => simp
  | cons finish ends ih =>
    rw [List.foldl_cons, ih (by simpa using hcard), returned_apply hcard,
      apply_start, Option.or_assoc]
    by_cases hcovers : finish.covers hold.start card
    · simp [hcovers]
    · simp [hcovers]

end

end CardHold

theorem returned_of_mem_cardHolds {rows : LeaseRows} {hold : CardHold}
    (h : hold ∈ cardHolds rows) {card : Nat} (hcard : card ∈ hold.start.cardIds) :
    hold.returned card = (recordedEnd rows hold.start card).map LeaseEnd.endedAt := by
  rcases List.mem_map.mp h with ⟨start, _, hfold⟩
  have hstart : start = hold.start := by
    rw [← hfold, CardHold.foldl_apply_start]
  subst hstart
  conv_lhs => rw [← hfold]
  exact @CardHold.returned_foldl_apply { start := hold.start } card hcard rows.leaseEnds

theorem CardHold.cardSeconds_le {first second : CardHold} (hstart : first.start = second.start)
    (hback : forall card time, card ∈ second.start.cardIds -> second.returned card = some time ->
      exists earlier, first.returned card = some earlier ∧ earlier ≤ time)
    (at_ : Rat) : first.cardSeconds at_ ≤ second.cardSeconds at_ := by
  unfold cardSeconds
  rw [hstart]
  apply List.sum_le_sum
  intro card hcard
  unfold secondsOf
  rw [hstart]
  apply max_le_max (le_refl 0)
  apply sub_le_sub_right
  cases hreturned : second.returned card with
  | none =>
    rw [Option.getD_none, min_self]
    exact min_le_right _ at_
  | some time =>
    rcases hback card time hcard hreturned with ⟨earlier, hearlier, hle⟩
    rw [hearlier]
    exact min_le_min_right at_ hle

end Toolbox
end Hyperloom
