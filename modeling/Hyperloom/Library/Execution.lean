import Mathlib.Order.Interval.Set.Infinite
import Mathlib.Order.Interval.Finset.Nat
import Hyperloom.Library.Machine

/-!
# Infinite executions

An execution is an infinite run.  A rank that no step raises bounds the steps
that lower it, and a cycle of stations that each step moves along yields an
execution that comes back to one of them forever.
-/

namespace Hyperloom
namespace Library
namespace Machine

variable {state label : Type}

structure Execution (M : Machine state label) (C : state -> label -> Prop) where
  states : Nat -> state
  labels : Nat -> label
  meets : forall n, C (states n) (labels n)
  steps : forall n, M.step (states n) (labels n) = some (states (n + 1))

namespace Execution

variable {M : Machine state label} {C D : state -> label -> Prop} (e : Execution M C)

def visits (Counts : state -> label -> state -> Prop) : Set Nat :=
  {n | Counts (e.states n) (e.labels n) (e.states (n + 1))}

/-- The execution from an instant on, whose steps may meet more than `C`. -/
def after (k : Nat) (h : forall n, k ≤ n -> D (e.states n) (e.labels n)) : Execution M D where
  states n := e.states (n + k)
  labels n := e.labels (n + k)
  meets n := h (n + k) (Nat.le_add_left k n)
  steps n := by
    rw [e.steps (n + k), Nat.add_right_comm]

/-!
## Ranks
-/

theorem rank_antitone {rank : state -> Nat} (e : Execution M C)
    (hmono : forall s a t, C s a -> M.step s a = some t -> rank t ≤ rank s) :
    Antitone (fun n => rank (e.states n)) :=
  antitone_nat_of_succ_le (fun n => hmono _ _ _ (e.meets n) (e.steps n))

variable {Counts : state -> label -> state -> Prop}

/-- Steps that lower a rank no step raises happen finitely often. -/
theorem visits_finite_of_rank (rank : state -> Nat) (e : Execution M C)
    (hstep : forall s a t, C s a -> M.step s a = some t ->
      rank t < rank s ∨ (¬ Counts s a t ∧ rank t ≤ rank s)) : (e.visits Counts).Finite := by
  have hanti := e.rank_antitone fun s a t hmeets hs =>
    (hstep s a t hmeets hs).elim Nat.le_of_lt And.right
  have hlower : forall {n k}, n ∈ e.visits Counts -> n < k ->
      rank (e.states k) < rank (e.states n) := by
    intro n k hn hnk
    have hdrop := (hstep _ _ _ (e.meets n) (e.steps n)).resolve_right fun h => h.left hn
    exact Nat.lt_of_le_of_lt (hanti (Nat.succ_le_of_lt hnk)) hdrop
  apply Set.Finite.of_injOn (t := Set.Iic (rank (e.states 0)))
  · intro n _
    exact hanti (Nat.zero_le n)
  · intro n hn k hk hsame
    rcases Nat.lt_trichotomy n k with hnk | hnk | hkn
    · exact absurd hsame (Nat.ne_of_gt (hlower hn hnk))
    · exact hnk
    · exact absurd hsame (Nat.ne_of_lt (hlower hk hkn))
  · exact Set.finite_Iic _

theorem visits_finite_of_after (k : Nat) (h : forall n, k ≤ n -> D (e.states n) (e.labels n))
    (hafter : ((e.after k h).visits Counts).Finite) : (e.visits Counts).Finite := by
  have hcover : e.visits Counts ⊆ Set.Iio k ∪ (fun n => n + k) '' (e.after k h).visits Counts := by
    intro n hn
    rcases Nat.lt_or_ge n k with hnk | hkn
    · exact Or.inl hnk
    · refine Or.inr ⟨n - k, ?_, Nat.sub_add_cancel hkn⟩
      have hshift : n - k + k = n := Nat.sub_add_cancel hkn
      have hnext : n - k + 1 + k = n + 1 := by lia
      show Counts (e.states (n - k + k)) (e.labels (n - k + k)) (e.states (n - k + 1 + k))
      rw [hshift, hnext]
      exact hn
  exact ((Set.finite_Iio k).union (hafter.image _)).subset hcover

/-!
## Stations
-/

section Stations

variable {station : Type} (next : station -> station)
  {At : station -> state -> Prop} {drive : station -> state -> label}

noncomputable def advance (hstep : forall c s, At c s -> C s (drive c s) ∧
      exists t, M.step s (drive c s) = some t ∧ At (next c) t)
    (here : {place : station × state // At place.1 place.2}) :
    {place : station × state // At place.1 place.2} :=
  ⟨(next here.1.1, (hstep _ _ here.2).2.choose), (hstep _ _ here.2).2.choose_spec.2⟩

/-- If every station is left for the next one and each leads back to `target`,
where the step counts, some execution counts infinitely many steps. -/
theorem exists_visits_infinite (hstep : forall c s, At c s -> C s (drive c s) ∧
      exists t, M.step s (drive c s) = some t ∧ At (next c) t)
    (target : station) (hcounts : forall s t, At target s ->
      M.step s (drive target s) = some t -> Counts s (drive target s) t)
    (hreturns : forall c, exists j, next^[j] c = target) {c : station}
    {s : state} (hstart : At c s) :
    exists e : Execution M C, (e.visits Counts).Infinite ∧
      forall n, exists c, At c (e.states n) ∧ e.labels n = drive c (e.states n) := by
  let place (n : Nat) : {place : station × state // At place.1 place.2} :=
    (advance next hstep)^[n] ⟨(c, s), hstart⟩
  have hnext : forall n, place (n + 1) = advance next hstep (place n) :=
    fun n => Function.iterate_succ_apply' _ n _
  have hmoved : forall n j, (place (n + j)).1.1 = next^[j] (place n).1.1 := by
    intro n j
    induction j with
    | zero => rfl
    | succ j ih =>
      rw [← Nat.add_assoc, hnext, Function.iterate_succ_apply', ← ih]
      rfl
  let e : Execution M C :=
    { states := fun n => (place n).1.2
      labels := fun n => drive (place n).1.1 (place n).1.2
      meets := fun n => (hstep _ _ (place n).2).1
      steps := by
        intro n
        rw [hnext]
        exact (hstep _ _ (place n).2).2.choose_spec.1 }
  refine ⟨e, ?_, fun n => ⟨(place n).1.1, (place n).2, rfl⟩⟩
  apply Set.infinite_of_forall_exists_gt
  intro n
  rcases hreturns (place (n + 1)).1.1 with ⟨j, hj⟩
  have hthere : (place (n + 1 + j)).1.1 = target := (hmoved (n + 1) j).trans hj
  refine ⟨n + 1 + j, ?_, by lia⟩
  have hat := (place (n + 1 + j)).2
  have hone := e.steps (n + 1 + j)
  show Counts (place (n + 1 + j)).1.2
    (drive (place (n + 1 + j)).1.1 (place (n + 1 + j)).1.2) (place (n + 1 + j + 1)).1.2
  change M.step (place (n + 1 + j)).1.2 (drive (place (n + 1 + j)).1.1 (place (n + 1 + j)).1.2) =
      some (place (n + 1 + j + 1)).1.2 at hone
  rw [hthere] at hat hone ⊢
  exact hcounts _ _ hat hone

end Stations

end Execution
end Machine
end Library
end Hyperloom
