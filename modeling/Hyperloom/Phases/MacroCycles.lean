import Mathlib.Data.Set.Finite.Lattice
import Hyperloom.Library.Execution
import Hyperloom.Phases.PhaseOrder

/-!
# Macro-cycles without a time budget

A session with no time limit opens another macro-cycle until the gain stayed
out of too many of them.  The gain is compared with its value at the start of
the cycle, and a lower validation moves that value down again.
-/

namespace Hyperloom
namespace Phases

open Library (Machine)

/-!
## Evolutions of the gain
-/

def gridScale : Rat := 2 ^ 1074

/-- Every finite double is a whole multiple of `2 ^ -1074`. -/
def OnGrid (x : Rat) : Prop := exists k : Int, x * gridScale = k

theorem gridScale_pos : 0 < gridScale := pow_pos two_pos 1074

/-- The thresholds of a session and the range its validated gain stays in. -/
structure CycleSettings where
  minGainPct : Rat
  noGainCycles : Int
  lo : Rat
  hi : Rat
  minGainPct_nonneg : 0 ≤ minGainPct
  noGainCycles_pos : 1 ≤ noGainCycles
  lo_le_hi : lo ≤ hi
  lo_onGrid : OnGrid lo
  hi_onGrid : OnGrid hi

namespace CycleSettings

variable (settings : CycleSettings) (s : PhaseState) (saturated : List (String × Bool))

/-- The `reloop` facts `_sweep_predicate_inputs` reads off the state, in a
session without a time limit. -/
def reloopFacts (minimum : Rat) : ReloopFacts where
  currentGainPct := s.cumulativeGainValidated
  gainAtCycleStartPct := s.gainAtCycleStart
  minGainPct := settings.minGainPct
  priorNoGainCycleStreak := s.noGainCycleStreak
  noGainCycles := settings.noGainCycles
  saturatedDirections := saturated
  sessionRemainingSec := none
  minRemainingSec := minimum

def Frozen (inputs : PredicateInputs) : Prop :=
  inputs.macroCycle = s.macroCycle ∧ inputs.globals.stopReason = s.stopReason ∧
  inputs.hint = s.pendingEscalateHint ∧ forall result budget, inputs.facts = .sweep result budget ->
    exists saturated minimum, result.reloop = settings.reloopFacts s saturated minimum

/-- The steps of an evolution: the gain is a double of the range and the inputs
are read off the state. -/
def Admits (a : PhaseOp) : Prop :=
  (OnGrid s.cumulativeGainValidated ∧ settings.lo ≤ s.cumulativeGainValidated ∧
    s.cumulativeGainValidated ≤ settings.hi) ∧
  forall inputs, a.inputs = some inputs -> settings.Frozen s inputs

/-- The streak of cycles without a gain, this one included. -/
def streakAfter : Int :=
  if settings.minGainPct < s.cumulativeGainValidated - s.gainAtCycleStart then 0
  else s.noGainCycleStreak + 1

theorem streak_reloopFacts (minimum : Rat) :
    (settings.reloopFacts s saturated minimum).streak = settings.streakAfter s := by
  unfold ReloopFacts.streak ReloopFacts.gained streakAfter reloopFacts
  simp only [decide_eq_true_eq]

end CycleSettings

def Reloops (s : PhaseState) (_ : PhaseOp) (t : PhaseState) : Prop :=
  exists row, t.phaseHistory = s.phaseHistory ++ [row] ∧ row.isReloop = true

def StartsLeg (_ : PhaseState) (a : PhaseOp) (_ : PhaseState) : Prop := a = .legStart

/-!
## One step of an evolution
-/

inductive CycleEffect (settings : CycleSettings) (s : PhaseState) (a : PhaseOp)
    (t : PhaseState) : Prop where
  | reloops : t.gainAtCycleStart = s.cumulativeGainValidated ->
    t.noGainCycleStreak = settings.streakAfter s ->
    settings.streakAfter s < settings.noGainCycles -> CycleEffect settings s a t
  | goesOn : ¬ Reloops s a t -> t.gainAtCycleStart = s.gainAtCycleStart ∨
      a = .legStart ∧ t.gainAtCycleStart = s.cumulativeGainValidated ->
    t.noGainCycleStreak = s.noGainCycleStreak ∨ t.noGainCycleStreak = settings.streakAfter s ->
    CycleEffect settings s a t

variable {evidence : Storage.Evidence} {s t : PhaseState} {a : PhaseOp}

theorem effectiveStreak_of_lookup {target : Phase} {reason : String} {streak : Int}
    (h : evidence.lookup "no_gain_cycle_streak_effective" = some (.int streak)) :
    Transition.effectiveStreak ⟨target, reason, evidence⟩ = some streak := by
  unfold Transition.effectiveStreak
  rw [h]

theorem effectiveStreak_of_plain {target : Phase} {reason : String} (h : Plain evidence) :
    Transition.effectiveStreak ⟨target, reason, evidence⟩ = none := by
  unfold Transition.effectiveStreak
  rw [h.2]

theorem effectiveStreak_cases {inputs : PredicateInputs} {move : Transition}
    (h : Decided inputs move) :
    move.effectiveStreak = none ∨
      exists result budget, inputs.facts = .sweep result budget ∧
        move.effectiveStreak = some result.reloop.streak := by
  cases h with
  | closes _ hplain => exact Or.inl (effectiveStreak_of_plain hplain)
  | converges hfacts _ hstreak =>
    exact Or.inr ⟨_, _, hfacts, effectiveStreak_of_lookup hstreak⟩
  | enables _ hplain | anchors _ _ hplain | handsToKernel _ _ hplain | sweeps _ hplain =>
    exact Or.inl (effectiveStreak_of_plain hplain)
  | reloops hfacts _ _ _ hstreak =>
    exact Or.inr ⟨_, _, hfacts, effectiveStreak_of_lookup hstreak⟩

theorem loopback_sweep {inputs : PredicateInputs} {move : Transition}
    (h : Decided inputs move) (hloop : move.isLoopback = true) :
    exists result budget, inputs.facts = .sweep result budget ∧
      move.effectiveStreak = some result.reloop.streak ∧
      result.reloop.streak < result.reloop.noGainCycles := by
  have hplain : forall {target reason evidence}, Plain evidence ->
      Transition.isLoopback ⟨target, reason, evidence⟩ = true -> False := by
    intro target reason evidence hplain hloop
    rw [isLoopback_of_plain hplain.1] at hloop
    cases hloop
  cases h with
  | closes _ hsilent => exact (hplain hsilent hloop).elim
  | converges _ hsilent _ =>
    rw [isLoopback_of_plain hsilent] at hloop
    cases hloop
  | enables _ hsilent | anchors _ _ hsilent | handsToKernel _ _ hsilent | sweeps _ hsilent =>
    exact (hplain hsilent hloop).elim
  | reloops hfacts _ hblocked _ hstreak =>
    exact ⟨_, _, hfacts, effectiveStreak_of_lookup hstreak, hblocked⟩

theorem not_reloops_of_history_eq (h : t.phaseHistory = s.phaseHistory) : ¬ Reloops s a t := by
  intro hreloops
  rcases hreloops with ⟨row, hrow, _⟩
  have hlength := congrArg List.length (h.symm.trans hrow)
  rw [List.length_append] at hlength
  exact absurd hlength (Nat.ne_of_lt (Nat.lt_succ_self _))

theorem not_reloops_of_row {row : PhaseRow} (h : t.phaseHistory = s.phaseHistory ++ [row])
    (hrow : row.isReloop = false) : ¬ Reloops s a t := by
  intro hreloops
  rcases hreloops with ⟨other, hother, hreloop⟩
  have hsame := List.append_cancel_left (h.symm.trans hother)
  cases hsame
  rw [hrow] at hreloop
  cases hreloop

theorem cycleEffect_of_step {settings : CycleSettings} (hadmits : settings.Admits s a)
    (hstep : phaseMachine.step s a = some t) : CycleEffect settings s a t := by
  have hjudged : forall {inputs result budget}, a.inputs = some inputs ->
      inputs.facts = .sweep result budget -> result.reloop.streak = settings.streakAfter s ∧
        result.reloop.noGainCycles = settings.noGainCycles := by
    intro inputs result budget hop hfacts
    rcases (hadmits.2 inputs hop).2.2.2 result budget hfacts with ⟨saturated, minimum, hreloop⟩
    rw [hreloop]
    exact ⟨settings.streak_reloopFacts s saturated minimum, rfl⟩
  cases phaseStep_effect hstep with
  | keeps _ hhistory hcycle hstreak =>
    exact CycleEffect.goesOn (not_reloops_of_history_eq hhistory)
      (Or.inl hcycle.gainAtCycleStart) (Or.inl hstreak)
  | enters _ _ _ hhistory hcycle hstreak =>
    exact CycleEffect.goesOn (not_reloops_of_row hhistory rfl)
      (Or.inl hcycle.gainAtCycleStart) (Or.inl hstreak)
  | reopens hstart _ _ hhistory hcycle hstreak =>
    exact CycleEffect.goesOn (not_reloops_of_row hhistory rfl)
      (Or.inr ⟨hstart, hcycle.gainAtCycleStart⟩) (Or.inl hstreak)
  | moves source inputs move hop hcommits hloop hcycle hstreak =>
    have hrow := isReloop_eq_isLoopback hcommits.decided
    rw [hcommits.frozen, hloop] at hrow
    apply CycleEffect.goesOn (not_reloops_of_row hcommits.history hrow)
      (Or.inl hcycle.gainAtCycleStart)
    rcases hstreak with hstreak | hstreak
    · exact Or.inl hstreak
    · rcases effectiveStreak_cases hcommits.decided with hnone | ⟨result, budget, hfacts, hsome⟩
      · rw [hnone] at hstreak
        exact Or.inl hstreak
      · rw [hsome] at hstreak
        exact Or.inr (hstreak.trans (hjudged hop hfacts).1)
  | loops source inputs move hop hcommits hloop hcycle hstreak =>
    rcases loopback_sweep hcommits.decided hloop with ⟨result, budget, hfacts, hsome, hblocked⟩
    rcases hjudged hop hfacts with ⟨hafter, hcycles⟩
    rw [hafter, hcycles] at hblocked
    rw [hsome] at hstreak
    exact CycleEffect.reloops hcycle.gainAtCycleStart (hstreak.trans hafter) hblocked

/-!
## A range no wider than the gain a cycle must show
-/

namespace CycleSettings

variable (settings : CycleSettings)

/-- Once a cycle starts inside the range its streak can only grow. -/
def convergedRank (s : PhaseState) : Nat :=
  if settings.lo ≤ s.gainAtCycleStart then
    (settings.noGainCycles - s.noGainCycleStreak).toNat
  else
    max settings.noGainCycles.toNat (settings.noGainCycles - s.noGainCycleStreak).toNat + 1

variable {settings} {s : PhaseState} {a : PhaseOp}

theorem streakAfter_cases (settings : CycleSettings) (s : PhaseState) :
    settings.streakAfter s = 0 ∨ settings.streakAfter s = s.noGainCycleStreak + 1 := by
  unfold streakAfter
  split
  · exact Or.inl rfl
  · exact Or.inr rfl

theorem convergedRank_of_settled (h : settings.lo ≤ s.gainAtCycleStart) :
    settings.convergedRank s = (settings.noGainCycles - s.noGainCycleStreak).toNat :=
  if_pos h

theorem convergedRank_of_unsettled (h : ¬ settings.lo ≤ s.gainAtCycleStart) :
    settings.convergedRank s =
      max settings.noGainCycles.toNat (settings.noGainCycles - s.noGainCycleStreak).toNat + 1 :=
  if_neg h

variable {t : PhaseState}

section

variable (hnarrow : settings.hi - settings.lo ≤ settings.minGainPct)
  (hadmits : settings.Admits s a)

include hnarrow hadmits

theorem streakAfter_of_narrow (hstart : settings.lo ≤ s.gainAtCycleStart) :
    settings.streakAfter s = s.noGainCycleStreak + 1 := by
  apply if_neg
  intro hgained
  have hhi := hadmits.1.2.2
  linarith

theorem convergedRank_reloops (hgain : t.gainAtCycleStart = s.cumulativeGainValidated)
    (hstreak : t.noGainCycleStreak = settings.streakAfter s)
    (hblocked : settings.streakAfter s < settings.noGainCycles) :
    settings.convergedRank t < settings.convergedRank s := by
  have hsettled : settings.lo ≤ t.gainAtCycleStart := by
    rw [hgain]
    exact hadmits.1.2.1
  rw [convergedRank_of_settled hsettled, hstreak]
  by_cases hstart : settings.lo ≤ s.gainAtCycleStart
  · rw [convergedRank_of_settled hstart]
    rw [streakAfter_of_narrow hnarrow hadmits hstart] at hblocked ⊢
    lia
  · rw [convergedRank_of_unsettled hstart]
    rcases streakAfter_cases settings s with hafter | hafter
    · lia
    · lia

theorem convergedRank_goesOn (hgain : t.gainAtCycleStart = s.gainAtCycleStart ∨
      a = .legStart ∧ t.gainAtCycleStart = s.cumulativeGainValidated)
    (hstreak : t.noGainCycleStreak = s.noGainCycleStreak ∨
      t.noGainCycleStreak = settings.streakAfter s) :
    settings.convergedRank t ≤ settings.convergedRank s := by
  by_cases hstart : settings.lo ≤ s.gainAtCycleStart
  · have hsettled : settings.lo ≤ t.gainAtCycleStart := by
      rcases hgain with hgain | ⟨_, hgain⟩
      · rw [hgain]
        exact hstart
      · rw [hgain]
        exact hadmits.1.2.1
    rw [convergedRank_of_settled hstart, convergedRank_of_settled hsettled]
    rw [streakAfter_of_narrow hnarrow hadmits hstart] at hstreak
    lia
  · have hbound : settings.convergedRank t ≤ max settings.noGainCycles.toNat
          (settings.noGainCycles - t.noGainCycleStreak).toNat + 1 := by
      unfold convergedRank
      split
      · lia
      · exact Nat.le_refl _
    rw [convergedRank_of_unsettled hstart]
    have hafter := streakAfter_cases settings s
    lia

end

/-!
## One cycle without a gain
-/

variable (settings)

/-- The steps of the double grid from `x` up to the top of the range. -/
def quanta (x : Rat) : Nat := ⌈(settings.hi - x) * gridScale⌉.toNat

/-- With one cycle allowed to show no gain, each reloop climbs the grid; a
streak below zero leaves that many cycles more. -/
def climbRank (s : PhaseState) : Nat :=
  (-s.noGainCycleStreak).toNat * (settings.quanta settings.lo + 1) +
    settings.quanta s.gainAtCycleStart

variable {settings}

theorem quanta_anti (settings : CycleSettings) {x y : Rat} (h : x ≤ y) :
    settings.quanta y ≤ settings.quanta x := by
  apply Int.toNat_le_toNat
  apply Int.ceil_mono
  apply mul_le_mul_of_nonneg_right _ gridScale_pos.le
  linarith

theorem quanta_lt {x y : Rat} (hxy : x < y) (hy : OnGrid y)
    (hhi : y ≤ settings.hi) : settings.quanta y < settings.quanta x := by
  rcases hy with ⟨k, hk⟩
  rcases settings.hi_onGrid with ⟨top, htop⟩
  have hwhole : (settings.hi - y) * gridScale = ((top - k : Int) : Rat) := by
    rw [sub_mul, htop, hk]
    push_cast
    rfl
  have hscaled : x * gridScale < y * gridScale := mul_lt_mul_of_pos_right hxy gridScale_pos
  have hnonneg : 0 ≤ (settings.hi - y) * gridScale :=
    mul_nonneg (sub_nonneg.mpr hhi) gridScale_pos.le
  have hlevel : 0 ≤ top - k := by
    rw [hwhole] at hnonneg
    exact_mod_cast hnonneg
  have habove : top - k < ⌈(settings.hi - x) * gridScale⌉ := by
    apply Int.lt_ceil.mpr
    linarith
  unfold quanta
  rw [hwhole, Int.ceil_intCast]
  lia

theorem climbRank_reloops (hone : settings.noGainCycles = 1) (hadmits : settings.Admits s a)
    (hgain : t.gainAtCycleStart = s.cumulativeGainValidated)
    (hstreak : t.noGainCycleStreak = settings.streakAfter s)
    (hblocked : settings.streakAfter s < settings.noGainCycles) :
    settings.climbRank t < settings.climbRank s := by
  unfold climbRank
  rw [hgain, hstreak]
  by_cases hgained : settings.minGainPct < s.cumulativeGainValidated - s.gainAtCycleStart
  · have hafter : settings.streakAfter s = 0 := if_pos hgained
    have hclimbs : s.gainAtCycleStart < s.cumulativeGainValidated := by
      have hnonneg := settings.minGainPct_nonneg
      linarith
    have hquanta := quanta_lt hclimbs hadmits.1.1 hadmits.1.2.2
    rw [hafter, Int.neg_zero, Int.toNat_zero, Nat.zero_mul, Nat.zero_add]
    exact Nat.lt_of_lt_of_le hquanta (Nat.le_add_left _ _)
  · have hafter : settings.streakAfter s = s.noGainCycleStreak + 1 := if_neg hgained
    have hfewer : (-s.noGainCycleStreak).toNat = (-(s.noGainCycleStreak + 1)).toNat + 1 := by lia
    have hquanta := quanta_anti settings hadmits.1.2.1
    rw [hafter, hfewer]
    lia

theorem climbRank_goesOn (hgain : t.gainAtCycleStart = s.gainAtCycleStart)
    (hstreak : t.noGainCycleStreak = s.noGainCycleStreak ∨
      t.noGainCycleStreak = settings.streakAfter s) :
    settings.climbRank t ≤ settings.climbRank s := by
  have hafter := streakAfter_cases settings s
  have hfewer : (-t.noGainCycleStreak).toNat ≤ (-s.noGainCycleStreak).toNat := by lia
  unfold climbRank
  rw [hgain]
  exact Nat.add_le_add_right (Nat.mul_le_mul_right _ hfewer) _

/-!
## Finitely many reloops
-/

theorem reloops_finite_of_narrow (hnarrow : settings.hi - settings.lo ≤ settings.minGainPct)
    (e : Machine.Execution phaseMachine settings.Admits) : (e.visits Reloops).Finite := by
  apply e.visits_finite_of_rank settings.convergedRank
  intro s a t hadmits hstep
  cases cycleEffect_of_step hadmits hstep with
  | reloops hgain hstreak hblocked =>
    exact Or.inl (convergedRank_reloops hnarrow hadmits hgain hstreak hblocked)
  | goesOn hnot hgain hstreak =>
    exact Or.inr ⟨hnot, convergedRank_goesOn hnarrow hadmits hgain hstreak⟩

def AdmitsInLeg (settings : CycleSettings) (s : PhaseState) (a : PhaseOp) : Prop :=
  settings.Admits s a ∧ a ≠ .legStart

theorem reloops_finite_in_leg (hone : settings.noGainCycles = 1)
    (e : Machine.Execution phaseMachine settings.AdmitsInLeg) : (e.visits Reloops).Finite := by
  apply e.visits_finite_of_rank settings.climbRank
  intro s a t hadmits hstep
  cases cycleEffect_of_step hadmits.1 hstep with
  | reloops hgain hstreak hblocked =>
    exact Or.inl (climbRank_reloops hone hadmits.1 hgain hstreak hblocked)
  | goesOn hnot hgain hstreak =>
    rcases hgain with hgain | ⟨hstart, _⟩
    · exact Or.inr ⟨hnot, climbRank_goesOn hgain hstreak⟩
    · exact absurd hstart hadmits.2

theorem reloops_finite_of_one (hone : settings.noGainCycles = 1)
    (e : Machine.Execution phaseMachine settings.Admits)
    (hlegs : (e.visits StartsLeg).Finite) : (e.visits Reloops).Finite := by
  rcases hlegs.bddAbove with ⟨last, hlast⟩
  have hafter : forall n, last + 1 ≤ n -> settings.AdmitsInLeg (e.states n) (e.labels n) := by
    intro n hn
    refine ⟨e.meets n, ?_⟩
    intro hstart
    exact absurd (hlast hstart) (Nat.not_le.mpr hn)
  exact e.visits_finite_of_after (last + 1) hafter
    (reloops_finite_in_leg hone (e.after (last + 1) hafter))

end CycleSettings

end Phases
end Hyperloom
