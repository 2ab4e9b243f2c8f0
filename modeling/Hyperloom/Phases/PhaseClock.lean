import Hyperloom.Phases.NextPhase

/-!
# Phase clock and session clock

The session clock charges a leg's time at every save, the phase clock banks an
entry's time at every transition.  A leg that ends leaves both to the saved
state; resuming it banks the interrupted entry up to the recorded stop.
-/

namespace Hyperloom
namespace Phases

open Storage (Unix)

/-!
## The clock fields of the shared state
-/

/-- The fields the two clocks read; a stamp is none while it is empty. -/
structure ClockState where
  phase : Option Phase
  phaseStartedUnix : Unix
  phaseElapsedTotals : Phase -> Rat
  resumedTs : Option Unix
  stopTs : Option Unix
  legEndedTs : Option Unix
  elapsedChargedSec : Rat
  legAnchorUnix : Unix
  startTs : Option Unix
  maxMinutes : Int

variable {phase : Phase}

namespace ClockState

variable (c : ClockState)

/-- When the live entry of the current phase began: its own start or the start
of the leg, `_resume_boundary_unix`, if that is later. -/
def entryStart : Unix := max c.phaseStartedUnix (max 0 (c.resumedTs.getD 0))

variable (now : Unix)

def phaseElapsedSeconds : Rat :=
  if c.phaseStartedUnix ≤ 0 then 0 else max 0 (now - c.entryStart)

def phaseCumulativeSeconds (phase : Phase) (now : Unix) : Rat :=
  max 0 (c.phaseElapsedTotals phase) + if c.phase = some phase then c.phaseElapsedSeconds now else 0

variable (untilUnix : Unix)

/-- The totals with the live entry of the current phase added to its own. -/
def totalsUntil : Phase -> Rat :=
  match c.phase with
  | none => c.phaseElapsedTotals
  | some phase =>
    Function.update c.phaseElapsedTotals phase
      (max 0 (c.phaseElapsedTotals phase) + c.phaseElapsedSeconds untilUnix)

def bankPhaseSegment : ClockState :=
  { c with phaseElapsedTotals := c.totalsUntil untilUnix }

/-- `record_phase_transition`, as to the clocks. -/
def recordTransition (target : Phase) (now : Unix) : ClockState :=
  { c.bankPhaseSegment now with phase := some target, phaseStartedUnix := now }

def beginLeg : ClockState := { c with legAnchorUnix := now }

def chargeElapsed : ClockState :=
  if c.legAnchorUnix ≤ 0 then c
  else
    { c with
      elapsedChargedSec := c.elapsedChargedSec + max 0 (now - c.legAnchorUnix)
      legAnchorUnix := now }

/-- `_commit_stop_reason`: the first stop stamps the end. -/
def stampStop : ClockState :=
  { c with stopTs := some (c.stopTs.getD now) }

def load : ClockState := { c with legAnchorUnix := 0 }

/-- The end of the previous leg, as far as a resume knows it. -/
def stopUnix : Unix := min ((c.legEndedTs.or c.stopTs).getD 0) now

/-- `_bank_previous_leg_phase_segment`. -/
def bankPreviousLeg : ClockState :=
  if c.stopUnix now ≤ 0 then c else c.bankPhaseSegment (c.stopUnix now)

def beginResumeLeg : ClockState :=
  { c.bankPreviousLeg now with
    resumedTs := some now
    stopTs := none
    legEndedTs := none
    legAnchorUnix := now }

def elapsedSecOf : Rat :=
  if 0 < c.legAnchorUnix then
    max 0 c.elapsedChargedSec + max 0 (now - c.legAnchorUnix)
  else if 0 < max 0 c.elapsedChargedSec then max 0 c.elapsedChargedSec
  else
    match c.startTs with
    | none => 0
    | some started => max 0 (now - started)

def remainingMinutes : Option Rat :=
  if c.maxMinutes = 0 then none
  else some (max 0 (c.maxMinutes - c.elapsedSecOf now / 60))

def sessionRemainingSeconds : Option Rat :=
  if c.maxMinutes ≤ 0 then none
  else if 0 < c.legAnchorUnix then
    some (max 0 (c.maxMinutes * 60 - (max 0 c.elapsedChargedSec + max 0 (now - c.legAnchorUnix))))
  else if 0 < max 0 c.elapsedChargedSec then
    some (max 0 (c.maxMinutes * 60 - max 0 c.elapsedChargedSec))
  else
    match c.startTs with
    | none => none
    | some started =>
      some (max 0 (c.maxMinutes * 60 - max 0 (now - started)))

def Dated : Prop :=
  0 < c.legAnchorUnix ∨ 0 < c.elapsedChargedSec ∨ c.startTs ≠ none

/-!
## What remains of the session
-/

theorem sixty_mul_remaining (minutes elapsed : Rat) :
    max 0 (minutes * 60 - elapsed) = 60 * max 0 (minutes - elapsed / 60) := by
  have hscaled : minutes * 60 - elapsed = 60 * (minutes - elapsed / 60) := by
    ring
  rw [hscaled, mul_max_of_nonneg 0 _ (by norm_num : (0 : Rat) ≤ 60), mul_zero]

variable {c : ClockState}

theorem sessionRemainingSeconds_of_dated {now : Unix}
    (hbounded : 0 < c.maxMinutes) (hdated : c.Dated) :
    c.sessionRemainingSeconds now = some (max 0 (c.maxMinutes * 60 - c.elapsedSecOf now)) := by
  unfold sessionRemainingSeconds elapsedSecOf
  rw [if_neg (Int.not_le.mpr hbounded)]
  split
  · rfl
  · rename_i hanchor
    split
    · rfl
    · rename_i hcharged
      rcases hdated with harmed | hspent | hstarted
      · exact absurd harmed hanchor
      · exact absurd (lt_max_of_lt_right hspent) hcharged
      cases hstart : c.startTs with
      | none => exact absurd hstart hstarted
      | some started => rfl

theorem remaining_agree {now : Unix} (hbounded : 0 < c.maxMinutes) (hdated : c.Dated) :
    exists minutes, c.remainingMinutes now = some minutes ∧
      c.sessionRemainingSeconds now = some (60 * minutes) := by
  refine ⟨_, if_neg (Int.ne_of_gt hbounded), ?_⟩
  rw [sessionRemainingSeconds_of_dated hbounded hdated, sixty_mul_remaining]

/-!
## The sum over the phases
-/

/-- The sum of `phase_cumulative_seconds` over all phases. -/
def sumOfPhases (c : ClockState) (now : Unix) : Rat :=
  c.phaseCumulativeSeconds .prelude now + c.phaseCumulativeSeconds .enablement now +
    c.phaseCumulativeSeconds .frameworkAgent now +
    c.phaseCumulativeSeconds .kernelAgent now + c.phaseCumulativeSeconds .sweep now +
    c.phaseCumulativeSeconds .close now

def banked (c : ClockState) : Rat :=
  max 0 (c.phaseElapsedTotals .prelude) + max 0 (c.phaseElapsedTotals .enablement) +
    max 0 (c.phaseElapsedTotals .frameworkAgent) +
    max 0 (c.phaseElapsedTotals .kernelAgent) + max 0 (c.phaseElapsedTotals .sweep) +
    max 0 (c.phaseElapsedTotals .close)

theorem sumOfPhases_eq (h : c.phase = some phase) :
    c.sumOfPhases now = c.banked + c.phaseElapsedSeconds now := by
  unfold sumOfPhases phaseCumulativeSeconds banked
  rw [h]
  cases phase with
  | _ =>
    simp only [Option.some.injEq, reduceCtorEq, if_true, if_false]
    ring

theorem phaseElapsedSeconds_nonneg (c : ClockState) (now : Unix) :
    0 ≤ c.phaseElapsedSeconds now := by
  unfold phaseElapsedSeconds
  split
  · exact le_refl 0
  · exact le_max_left 0 _

theorem banked_bankPhaseSegment (h : c.phase = some phase) :
    (c.bankPhaseSegment untilUnix).banked = c.banked + c.phaseElapsedSeconds untilUnix := by
  have hnonneg := c.phaseElapsedSeconds_nonneg untilUnix
  have hsum : forall x : Rat, max 0 (max 0 x + c.phaseElapsedSeconds untilUnix) =
      max 0 x + c.phaseElapsedSeconds untilUnix := by
    intro x
    apply max_eq_right
    exact add_nonneg (le_max_left 0 x) hnonneg
  unfold bankPhaseSegment banked totalsUntil
  rw [h]
  cases phase with
  | _ =>
    simp only [Function.update, reduceCtorEq, dif_pos, dif_neg, not_false_eq_true, hsum]
    ring

end ClockState

/-!
## Drift

By how much the session clock is ahead of the phase clock.  It does not depend
on when the two are read.
-/

/-- A leg that charges into a current phase, with every stamp in the past. -/
structure OpenLeg (c : ClockState) (now : Unix) : Prop where
  charged_nonneg : 0 ≤ c.elapsedChargedSec
  anchor_pos : 0 < c.legAnchorUnix
  anchor_le : c.legAnchorUnix ≤ now
  phase : exists phase, c.phase = some phase
  started_pos : 0 < c.phaseStartedUnix
  entryStart_le : c.entryStart ≤ now
  stop_le : (c.legEndedTs.or c.stopTs).getD 0 ≤ now

namespace ClockState

def drift (c : ClockState) : Rat :=
  c.elapsedChargedSec - c.banked - (c.legAnchorUnix - c.entryStart)

end ClockState

open ClockState

theorem phaseElapsedSeconds_of_started {c : ClockState}
    (hstarted : 0 < c.phaseStartedUnix) (now : Unix) :
    c.phaseElapsedSeconds now = max 0 (now - c.entryStart) :=
  if_neg (not_le.mpr hstarted)

namespace OpenLeg

variable {c : ClockState} {now later : Unix}

section

variable (h : OpenLeg c now)

include h

theorem mono (hle : now ≤ later) : OpenLeg c later where
  __ := h
  anchor_le := le_trans h.anchor_le hle
  entryStart_le := le_trans h.entryStart_le hle
  stop_le := le_trans h.stop_le hle

theorem phaseElapsedSeconds_eq : c.phaseElapsedSeconds now = now - c.entryStart := by
  rw [phaseElapsedSeconds_of_started h.started_pos]
  exact max_eq_right (sub_nonneg.mpr h.entryStart_le)

theorem elapsedSecOf_eq : c.elapsedSecOf now = c.elapsedChargedSec + (now - c.legAnchorUnix) := by
  unfold elapsedSecOf
  rw [if_pos h.anchor_pos, max_eq_right h.charged_nonneg, max_eq_right (sub_nonneg.mpr h.anchor_le)]

theorem sumOfPhases_eq : c.sumOfPhases now = c.banked + (now - c.entryStart) := by
  rcases h.phase with ⟨phase, hphase⟩
  rw [ClockState.sumOfPhases_eq now hphase, h.phaseElapsedSeconds_eq]

theorem elapsed_sub_phases : c.elapsedSecOf now - c.sumOfPhases now = c.drift := by
  rw [h.elapsedSecOf_eq, h.sumOfPhases_eq, drift]
  ring

/-!
## What keeps the drift
-/

section

variable (hle : now ≤ later)

include hle

theorem chargeElapsed_eq :
    c.chargeElapsed later = { c with
        elapsedChargedSec := c.elapsedChargedSec + (later - c.legAnchorUnix)
        legAnchorUnix := later } := by
  unfold chargeElapsed
  rw [if_neg (not_le.mpr h.anchor_pos), max_eq_right (sub_nonneg.mpr (le_trans h.anchor_le hle))]

theorem charge :
    OpenLeg (c.chargeElapsed later) later ∧ (c.chargeElapsed later).drift = c.drift ∧
      (c.chargeElapsed later).legAnchorUnix = later := by
  have hanchor := le_trans h.anchor_le hle
  rw [h.chargeElapsed_eq hle]
  refine ⟨?_, ?_, rfl⟩
  · exact
      { charged_nonneg := add_nonneg h.charged_nonneg (sub_nonneg.mpr hanchor)
        anchor_pos := lt_of_lt_of_le h.anchor_pos hanchor
        anchor_le := le_refl later
        phase := h.phase
        started_pos := h.started_pos
        entryStart_le := le_trans h.entryStart_le hle
        stop_le := le_trans h.stop_le hle }
  · show c.elapsedChargedSec + (later - c.legAnchorUnix) - c.banked -
      (later - c.entryStart) = c.drift
    rw [drift]
    ring

theorem stamp : OpenLeg (c.stampStop later) later ∧ (c.stampStop later).drift = c.drift := by
  have hlater := h.mono hle
  refine ⟨?_, rfl⟩
  refine { hlater with stop_le := ?_ }
  have hstop := hlater.stop_le
  unfold stampStop
  cases hended : c.legEndedTs with
  | some ended =>
    rw [hended] at hstop
    exact hstop
  | none =>
    rw [hended] at hstop
    cases hstopped : c.stopTs with
    | some stopped =>
      rw [hstopped] at hstop
      exact hstop
    | none => exact le_refl later

theorem transition (target : Phase) :
    OpenLeg (c.recordTransition target later) later ∧
      (c.recordTransition target later).drift = c.drift := by
  rcases h.phase with ⟨phase, hphase⟩
  have hlater := h.mono hle
  have hpos : 0 < later := lt_of_lt_of_le hlater.anchor_pos hlater.anchor_le
  have hbanked := banked_bankPhaseSegment later hphase
  have hresumed : max 0 (c.resumedTs.getD 0) ≤ later :=
    le_trans (le_max_right _ _) hlater.entryStart_le
  have hstart : (c.recordTransition target later).entryStart = later := max_eq_left hresumed
  have htotals : (c.recordTransition target later).banked = c.banked + (later - c.entryStart) := by
    rw [← hlater.phaseElapsedSeconds_eq, ← hbanked]
    rfl
  constructor
  · exact
      { charged_nonneg := hlater.charged_nonneg
        anchor_pos := hlater.anchor_pos
        anchor_le := hlater.anchor_le
        phase := ⟨target, rfl⟩
        started_pos := hpos
        entryStart_le := le_of_eq hstart
        stop_le := hlater.stop_le }
  · rw [drift, htotals, hstart, drift]
    show c.elapsedChargedSec - _ - (c.legAnchorUnix - later) = _
    ring

end

end

end OpenLeg

/-!
## The start of a leg
-/

namespace ClockState

variable (c : ClockState)

/-- The part of the interrupted entry, up to the last charge, that resuming at
`now` does not bank. -/
def unbankedTail (now : Unix) : Rat :=
  c.phaseElapsedSeconds c.legAnchorUnix -
    if c.stopUnix now ≤ 0 then 0 else c.phaseElapsedSeconds (c.stopUnix now)

theorem phaseElapsedSeconds_mono {earlier later : Unix}
    (hle : earlier ≤ later) : c.phaseElapsedSeconds earlier ≤ c.phaseElapsedSeconds later := by
  unfold phaseElapsedSeconds
  split
  · exact le_refl 0
  · exact max_le_max_left 0 (sub_le_sub_right hle _)

theorem banked_bankPreviousLeg {c : ClockState} (now : Unix) (h : c.phase = some phase) :
    (c.bankPreviousLeg now).banked = c.banked +
      if c.stopUnix now ≤ 0 then 0 else c.phaseElapsedSeconds (c.stopUnix now) := by
  unfold bankPreviousLeg
  split
  · exact (add_zero _).symm
  · exact banked_bankPhaseSegment _ h

theorem bankPreviousLeg_eq (now : Unix) : c.bankPreviousLeg now =
      { c with phaseElapsedTotals := (c.bankPreviousLeg now).phaseElapsedTotals } := by
  unfold bankPreviousLeg
  split
  · rfl
  · rfl

end ClockState

namespace OpenLeg

variable {c : ClockState} {now : Unix}

theorem unbankedTail_nonneg (h : OpenLeg c c.legAnchorUnix) : 0 ≤ c.unbankedTail now := by
  unfold unbankedTail
  split
  · exact sub_nonneg.mpr (c.phaseElapsedSeconds_nonneg _)
  · apply sub_nonneg.mpr
    apply c.phaseElapsedSeconds_mono
    exact le_trans (min_le_left _ _) h.stop_le

/-- A resumed leg charges nothing for the time the process was down. -/
theorem elapsedChargedSec_beginResumeLeg (c : ClockState) (now : Unix) :
    (c.load.beginResumeLeg now).elapsedChargedSec = c.elapsedChargedSec := by
  unfold beginResumeLeg
  rw [bankPreviousLeg_eq]
  rfl

theorem resume (h : OpenLeg c c.legAnchorUnix) (hle : c.legAnchorUnix ≤ now) :
    OpenLeg (c.load.beginResumeLeg now) now ∧
      (c.load.beginResumeLeg now).drift = c.drift + c.unbankedTail now := by
  rcases h.phase with ⟨phase, hphase⟩
  have hpos : 0 < now := lt_of_lt_of_le h.anchor_pos hle
  have hload : c.load.phase = some phase := hphase
  have hstarted : c.phaseStartedUnix ≤ now :=
    le_trans (le_trans (le_max_left _ _) h.entryStart_le) hle
  have hstart : (c.load.beginResumeLeg now).entryStart = now := by
    unfold beginResumeLeg
    rw [bankPreviousLeg_eq]
    show max c.phaseStartedUnix (max 0 now) = now
    rw [max_eq_right hpos.le, max_eq_right hstarted]
  have htotals : (c.load.beginResumeLeg now).banked = c.banked + if c.stopUnix now ≤ 0 then 0
      else c.phaseElapsedSeconds (c.stopUnix now) :=
    banked_bankPreviousLeg now hload
  constructor
  · refine
      { charged_nonneg := ?_, anchor_pos := hpos, anchor_le := le_refl now,
        phase := ⟨phase, ?_⟩, started_pos := ?_,
        entryStart_le := le_of_eq hstart, stop_le := hpos.le }
    · rw [elapsedChargedSec_beginResumeLeg]
      exact h.charged_nonneg
    · unfold beginResumeLeg
      rw [bankPreviousLeg_eq]
      exact hphase
    · unfold beginResumeLeg
      rw [bankPreviousLeg_eq]
      exact h.started_pos
  · rw [drift, elapsedChargedSec_beginResumeLeg, htotals, hstart, drift,
      unbankedTail, h.phaseElapsedSeconds_eq]
    show _ - _ - (now - now) = _
    ring

end OpenLeg

end Phases
end Hyperloom
