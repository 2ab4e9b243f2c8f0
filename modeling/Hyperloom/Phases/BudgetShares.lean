import Mathlib.Algebra.BigOperators.Ring.List
import Hyperloom.Phases.NextPhase

/-!
# The budget shares of the phases

A session that runs without a work phase gives that phase's share of the wall
clock to the work phases that are left.
-/

namespace Hyperloom
namespace Phases

/-!
## The redistribution
-/

/-- A phase that the dict lacks has the share 0, as `get` reads it. -/
abbrev BudgetPct := Phase -> Rat

/-- What `normalize_budget_pct` leaves: every share is one of a wall clock. -/
structure PhaseShares where
  pct : BudgetPct
  nonneg : forall p, 0 ≤ pct p
  le_one : forall p, pct p ≤ 1

structure WorkPhases where
  optimizeEnabled : Bool := true
  kernelEnabled : Bool := true
  sweepEnabled : Bool := true

/-- The loop `for p in phases: out[p] = f(out[p])`, for distinct phases. -/
def setEach (f : Rat -> Rat) (phases : List Phase) (out : BudgetPct) (p : Phase) : Rat :=
  if p ∈ phases then f (out p) else out p

def cap (pct : Rat) : Rat := if 1 < pct then 1 else pct

namespace WorkPhases

variable (w : WorkPhases)

def toggles : List (Phase × Bool) :=
  [(.frameworkAgent, w.optimizeEnabled), (.kernelAgent, w.kernelEnabled), (.sweep, w.sweepEnabled)]

def disabled : List Phase :=
  (w.toggles.filter fun toggle => !toggle.2).map Prod.fst

def absorbers : List Phase :=
  [Phase.frameworkAgent, .kernelAgent, .sweep].filter fun p => p ∉ w.disabled

variable (base : BudgetPct)

def freed : Rat := (w.disabled.map base).sum

def weight (out : BudgetPct) : Rat := (w.absorbers.map out).sum

def drained : BudgetPct := setEach (fun _ => 0) w.disabled base

/-- The table once the freed share is given away, before the caps. -/
def absorbed : BudgetPct :=
  let weight := w.weight (w.drained base)
  if 0 < weight then
    setEach (fun pct => pct + w.freed base * pct / weight) w.absorbers (w.drained base)
  else if w.sweepEnabled then
    setEach (fun pct => pct + w.freed base) [.sweep] (w.drained base)
  else w.drained base

end WorkPhases

def redistributeBudgetPct (base : BudgetPct) (w : WorkPhases) : BudgetPct :=
  if w.freed base ≤ 0 then w.drained base
  else setEach cap w.absorbers (w.absorbed base)

def total (pct : BudgetPct) : Rat :=
  ([.prelude, .enablement, .frameworkAgent, .kernelAgent, .sweep, .close].map pct).sum

/-- A disabled phase has no share, no other has less than before, and unless a
share is capped the total is what it was. -/
structure Conserves (base : BudgetPct) (w : WorkPhases) : Prop where
  disabled : forall p, p ∈ w.disabled -> redistributeBudgetPct base w p = 0
  enabled : forall p, p ∉ w.disabled -> base p ≤ redistributeBudgetPct base w p
  total : (forall p, p ∈ w.absorbers -> w.absorbed base p ≤ 1) ->
    total (redistributeBudgetPct base w) = total base

/-!
## What is given away
-/

theorem setEach_spec {f : Rat -> Rat} {phases absorbers : List Phase} {out : BudgetPct}
    {p : Phase} (hphases : phases ⊆ absorbers) (h : out p ≤ f (out p)) :
    (p ∉ absorbers -> setEach f phases out p = out p) ∧ out p ≤ setEach f phases out p := by
  refine ⟨fun hp => if_neg fun hin => hp (hphases hin), ?_⟩
  unfold setEach
  split
  · exact h
  · exact le_refl _

namespace WorkPhases

variable (w : WorkPhases) (base : BudgetPct) {p : Phase}

theorem not_disabled (h : p ∈ w.absorbers) : p ∉ w.disabled := by
  simpa using List.of_mem_filter h

theorem weight_drained : w.weight (w.drained base) = w.weight base := by
  refine congrArg List.sum (List.map_congr_left ?_)
  intro p hp
  exact if_neg (w.not_disabled hp)

/-- Every phase may give, may absorb or does neither. -/
theorem total_eq : total base =
    base .prelude + base .enablement + base .close + w.freed base + w.weight base := by
  rcases w with ⟨_ | _, _ | _, _ | _⟩
  all_goals
    simp [total, freed, weight, absorbers, disabled, toggles]
    ring

variable (shares : PhaseShares)

theorem freed_nonneg : 0 ≤ w.freed shares.pct := by
  refine List.sum_nonneg ?_
  intro x hx
  rcases List.mem_map.mp hx with ⟨p, _, rfl⟩
  exact shares.nonneg p

theorem drained_mem (p : Phase) : 0 ≤ w.drained shares.pct p ∧ w.drained shares.pct p ≤ 1 := by
  unfold drained setEach
  split
  · exact ⟨le_refl _, zero_le_one⟩
  · exact ⟨shares.nonneg p, shares.le_one p⟩

/-- Only absorbers gain, and nobody loses. -/
theorem absorbed_spec (p : Phase) :
    (p ∉ w.absorbers -> w.absorbed shares.pct p = w.drained shares.pct p) ∧
      w.drained shares.pct p ≤ w.absorbed shares.pct p := by
  have hfreed := w.freed_nonneg shares
  unfold absorbed
  split
  · rename_i hweight
    have hgain := mul_nonneg hfreed (w.drained_mem shares p).left
    refine setEach_spec (List.Subset.refl _) ?_
    exact le_add_of_nonneg_right (div_nonneg hgain hweight.le)
  · split
    · rename_i hsweep
      refine setEach_spec ?_ (le_add_of_nonneg_right hfreed)
      simp [absorbers, disabled, toggles, hsweep]
    · exact ⟨fun _ => rfl, le_refl _⟩

theorem sum_absorb (l : List Phase) (x : BudgetPct) (freed : Rat) (h : (l.map x).sum ≠ 0) :
    (l.map fun p => x p + freed * x p / (l.map x).sum).sum = (l.map x).sum + freed := by
  have hscale : (fun p => x p + freed * x p / (l.map x).sum) =
      fun p => x p + freed / (l.map x).sum * x p := by
    funext p
    rw [mul_div_right_comm]
  rw [hscale, List.sum_map_add, List.sum_map_mul_left, div_mul_cancel₀ _ h]

/-- The freed share is given away whole where there is a weight to divide it
by or a sweep to park it on. -/
theorem weight_absorbed (h : 0 < w.weight base ∨ w.sweepEnabled = true) :
    w.weight (w.absorbed base) = w.weight base + w.freed base := by
  rw [← w.weight_drained base] at h ⊢
  unfold absorbed
  dsimp only
  split
  · rename_i hweight
    refine Eq.trans ?_ (sum_absorb w.absorbers (w.drained base) (w.freed base) hweight.ne')
    refine congrArg List.sum (List.map_congr_left ?_)
    intro p hp
    exact if_pos hp
  · rename_i hweight
    have hsweep := h.resolve_left hweight
    rw [if_pos hsweep]
    rcases w with ⟨_ | _, _ | _, _⟩
    all_goals
      cases hsweep
      simp [weight, absorbers, disabled, toggles, setEach, add_assoc]

end WorkPhases

/-!
## Conservation
-/

variable (shares : PhaseShares) (w : WorkPhases)

theorem redistribute_spec (p : Phase) :
    (p ∉ w.absorbers -> redistributeBudgetPct shares.pct w p = w.drained shares.pct p) ∧
      w.drained shares.pct p ≤ redistributeBudgetPct shares.pct w p := by
  have habsorbed := w.absorbed_spec shares p
  unfold redistributeBudgetPct
  split
  · exact ⟨fun _ => rfl, le_refl _⟩
  · unfold setEach
    split
    · rename_i hp
      refine ⟨absurd hp, ?_⟩
      unfold cap
      split
      · exact (w.drained_mem shares p).right
      · exact habsorbed.right
    · exact habsorbed

theorem redistribute_disabled {p : Phase} (h : p ∈ w.disabled) :
    redistributeBudgetPct shares.pct w p = 0 := by
  rw [(redistribute_spec shares w p).left fun hp => w.not_disabled hp h]
  exact if_pos h

/-- The total changes by what the absorbers gain less what was freed. -/
theorem total_redistribute :
    total (redistributeBudgetPct shares.pct w) + w.freed shares.pct + w.weight shares.pct =
      total shares.pct + w.weight (redistributeBudgetPct shares.pct w) := by
  have hfreed : w.freed (redistributeBudgetPct shares.pct w) = 0 := by
    refine List.sum_eq_zero ?_
    intro x hx
    rcases List.mem_map.mp hx with ⟨p, hp, rfl⟩
    exact redistribute_disabled shares w hp
  have hother : forall p, p ∈ [Phase.prelude, .enablement, .close] ->
      redistributeBudgetPct shares.pct w p = shares.pct p := by
    intro p hp
    have hwork : p ∉ w.absorbers ∧ p ∉ w.disabled := by
      rcases w with ⟨_ | _, _ | _, _ | _⟩
      all_goals revert p; decide
    exact ((redistribute_spec shares w p).left hwork.left).trans (if_neg hwork.right)
  rw [w.total_eq, w.total_eq shares.pct, hfreed, hother .prelude (by decide),
    hother .enablement (by decide), hother .close (by decide)]
  ring

/-- Nothing is capped, so the absorbers have what they were given. -/
theorem weight_redistribute (hcap : forall p, p ∈ w.absorbers -> w.absorbed shares.pct p ≤ 1)
    (hfreed : 0 < w.freed shares.pct) :
    w.weight (redistributeBudgetPct shares.pct w) = w.weight (w.absorbed shares.pct) := by
  refine congrArg List.sum (List.map_congr_left ?_)
  intro p hp
  rw [redistributeBudgetPct, if_neg hfreed.not_ge, setEach, if_pos hp, cap,
    if_neg (hcap p hp).not_gt]

/-- The shares are conserved exactly when nothing is freed, an enabled work
phase has a share, or the sweep is enabled. -/
theorem budget_shares_conserved : Conserves shares.pct w <->
    w.freed shares.pct = 0 ∨ 0 < w.weight shares.pct ∨ w.sweepEnabled = true := by
  have htotal := total_redistribute shares w
  constructor
  · intro h
    by_contra hlost
    rcases not_or.mp hlost with ⟨hfreed, hplaced⟩
    rcases not_or.mp hplaced with ⟨hweight, hsweep⟩
    -- Nothing absorbs, so the table stays as it was drained.
    have hkept : w.absorbed shares.pct = w.drained shares.pct := by
      rw [WorkPhases.absorbed, w.weight_drained, if_neg hweight, if_neg hsweep]
    have hcap : forall p, p ∈ w.absorbers -> w.absorbed shares.pct p ≤ 1 := by
      intro p _
      rw [hkept]
      exact (w.drained_mem shares p).right
    have hpos := lt_of_le_of_ne (w.freed_nonneg shares) (Ne.symm hfreed)
    rw [h.total hcap, weight_redistribute shares w hcap hpos, hkept, w.weight_drained] at htotal
    linarith
  · intro h
    refine ⟨fun _ => redistribute_disabled shares w, ?_, ?_⟩
    · intro p hp
      exact (if_neg hp).ge.trans (redistribute_spec shares w p).right
    · intro hcap
      rcases (w.freed_nonneg shares).eq_or_lt with hzero | hpos
      · rw [redistributeBudgetPct, if_pos hzero.ge, w.weight_drained] at htotal
        rw [redistributeBudgetPct, if_pos hzero.ge]
        linarith
      · rw [weight_redistribute shares w hcap hpos,
          w.weight_absorbed _ (h.resolve_left hpos.ne')] at htotal
        linarith

/-- `--phase-budget-framework-pct 0`, the other shares at their defaults. -/
def idleFramework : PhaseShares where
  pct
    | .prelude => 3 / 100
    | .kernelAgent => 47 / 100
    | .sweep => 5 / 100
    | .close => 2 / 100
    | _ => 0
  nonneg p := by
    cases p with
    | _ => norm_num
  le_one p := by
    cases p with
    | _ => norm_num

/-- Without kernel and sweep the only work phase left has no share to weigh it
by, and both freed shares are lost. -/
theorem freed_shares_lost :
    let w : WorkPhases := { kernelEnabled := false, sweepEnabled := false }
    w.absorbers = [.frameworkAgent] ∧
      redistributeBudgetPct idleFramework.pct w .frameworkAgent = 0 ∧
      total idleFramework.pct = 57 / 100 ∧
      total (redistributeBudgetPct idleFramework.pct w) = 5 / 100 ∧
      ¬ Conserves idleFramework.pct w := by
  refine ⟨by decide, by decide +kernel, by decide +kernel, by decide +kernel, ?_⟩
  intro h
  have htotal := h.total (by decide +kernel)
  revert htotal
  decide +kernel

end Phases
end Hyperloom
