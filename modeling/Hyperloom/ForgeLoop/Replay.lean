import Mathlib.Data.List.Sort
import Hyperloom.ForgeLoop.RunState

/-!
# Replaying an iteration that was not kept

The live session reduces an iteration into the run state, appends its
`iteration_result` and saves.  A session killed before the save leaves the
event, and the next resume reduces the event instead of the result.
-/

namespace Hyperloom
namespace ForgeLoop

/-!
## What a rejected candidate is pinned for
-/

/-- The measured cases of a candidate: `case_times` and `case_spreads` of its
measurements. -/
structure BenchDetail where
  caseTimes : CaseTimes
  spreads : CaseTimes

def casesBeatingReference (caseTimes reference spreads : CaseTimes) : List String :=
  (reference.filter fun (entry : String × Rat) =>
    match caseTimes.lookup entry.1, spreads.lookup entry.1 with
    | some measured, some spread =>
      decide (0 < entry.2 ∧ 0 < measured ∧ 0 < spread ∧ measured < entry.2 - spread)
    | _, _ => false).map Prod.fst

structure DirectionEvidence where
  meanCaseSpeedup : Option Rat
  bestMeanCaseSpeedup : Option Rat
  benchDetail : Option BenchDetail := none
  incumbentCaseTimes : CaseTimes := []

def beatsCurrentBest (score best : Option Rat) : Bool :=
  score.any fun score => decide (best.getD 1 < score)

namespace DirectionEvidence

variable (evidence : DirectionEvidence)

def Beats : Prop :=
  beatsCurrentBest evidence.meanCaseSpeedup evidence.bestMeanCaseSpeedup = true

def WinsCase : Prop :=
  evidence.benchDetail.any (fun detail =>
    !(casesBeatingReference detail.caseTimes evidence.incumbentCaseTimes
      detail.spreads).isEmpty) = true

instance : Decidable evidence.Beats :=
  inferInstanceAs (Decidable (_ = true))

instance : Decidable evidence.WinsCase :=
  inferInstanceAs (Decidable (_ = true))

end DirectionEvidence

/-- `_record_direction_verdict`: pin a rejected candidate that was faster. -/
def RunState.recordDirectionVerdict (state : RunState) (iteration : Nat)
    (decision : Decision) (evidence : DirectionEvidence) : RunState :=
  { state with
    pinnedIterations :=
      if decision = .revertPerf ∧ (evidence.Beats ∨ evidence.WinsCase) then
        pin state.pinnedIterations state.best.iteration iteration
      else state.pinnedIterations }

/-!
## The live outcome and its event
-/

structure LoopMemory where
  baselineWallMs : Option Rat
  bestWallMs : Option Rat
  bestMeanCaseSpeedup : Option Rat
  baselineCaseTimes : CaseTimes
  bestCaseTimes : CaseTimes
  unscoredCases : List String

def LoopMemory.scoredIncumbentCaseTimes (loop : LoopMemory) : CaseTimes :=
  loop.bestCaseTimes.filter fun entry =>
    loop.baselineCaseTimes.any (fun base => base.1 == entry.1) &&
      !loop.unscoredCases.contains entry.1 && decide (0 < entry.2)

/-- An `IterationResult` that was not kept, as far as its record reads it. -/
structure Reverted where
  iteration : Nat
  decision : Decision
  wallMs : Option Rat
  meanCaseSpeedup : Option Rat
  benchDetail : Option BenchDetail
  commitHash : String
  agentProfileId : String
  plan : String
  /-- `_decision_label` gives KEEP to a kept result only. -/
  notKept : decision ≠ .keep

/-- The fields of an `iteration_result` event; `make_event` leaves out those
that are `None`. -/
structure ResultEvent where
  iteration : Nat
  decision : Decision
  plan : Option String
  wallMs : Option Rat
  meanCaseSpeedup : Option Rat
  agentProfileId : Option String
  commitHash : Option String
  bestAfterMs : Option Rat
  bestAfterMeanCaseSpeedup : Option Rat
  diversificationCycleCompleted : Bool

def orNone (text : String) : Option String :=
  if text = "" then none else some text

theorem getD_orNone (text : String) : (orNone text).getD "" = text := by
  unfold orNone
  split
  · rename_i hempty
    rw [hempty]
    rfl
  · rfl

namespace LoopMemory

variable (loop : LoopMemory)

/-- `_iteration_result_event` of a result that was not kept. -/
def resultEvent (state : RunState) (result : Reverted) : ResultEvent where
  iteration := result.iteration
  decision := result.decision
  plan := orNone (clipPlan result.plan)
  wallMs := result.wallMs
  meanCaseSpeedup := result.meanCaseSpeedup
  agentProfileId := orNone result.agentProfileId
  commitHash := orNone result.commitHash
  bestAfterMs := loop.bestWallMs
  bestAfterMeanCaseSpeedup := loop.bestMeanCaseSpeedup
  diversificationCycleCompleted := state.diversificationCycleCompleted

def evidence (result : Reverted) : DirectionEvidence where
  meanCaseSpeedup := result.meanCaseSpeedup
  bestMeanCaseSpeedup := loop.bestMeanCaseSpeedup
  benchDetail := result.benchDetail
  incumbentCaseTimes := loop.scoredIncumbentCaseTimes

def recordOutcome (state : RunState) (result : Reverted) (policy : StallPolicy) : Option RunState :=
  (state.applyIteration
    { iteration := result.iteration, decision := result.decision, kept := false
      wallMs := result.wallMs, commitHash := result.commitHash
      plan := result.plan, meanCaseSpeedup := result.meanCaseSpeedup }
    { baselineWallMs := loop.baselineWallMs, bestWallMs := loop.bestWallMs
      bestMeanCaseSpeedup := loop.bestMeanCaseSpeedup } policy).map
    fun reduced =>
      { reduced with
        agentRelay := reduced.agentRelay.searchOutcome result.decision
          result.agentProfileId }.recordDirectionVerdict result.iteration
        result.decision (loop.evidence result)

end LoopMemory

/-!
## The replay
-/

def ResultEvent.evidence (event : ResultEvent) : DirectionEvidence where
  meanCaseSpeedup := event.meanCaseSpeedup
  bestMeanCaseSpeedup := event.bestAfterMeanCaseSpeedup

namespace RunState

variable (state : RunState)

def applyReplayedNonKeep (event : ResultEvent) (policy : StallPolicy) : Option RunState :=
  if event.decision = .keep then none
  else
    (state.applyIteration
      { iteration := event.iteration, decision := event.decision, kept := false
        wallMs := event.wallMs, commitHash := event.commitHash.getD ""
        plan := event.plan.getD "", meanCaseSpeedup := event.meanCaseSpeedup }
      { baselineWallMs := state.baselineWallMs
        bestWallMs := event.bestAfterMs
        bestMeanCaseSpeedup := event.bestAfterMeanCaseSpeedup } policy).map
      fun reduced =>
        { reduced with
          diversificationCycleCompleted := event.diversificationCycleCompleted
          agentRelay := reduced.agentRelay.searchOutcome event.decision
            (event.agentProfileId.getD "") }.recordDirectionVerdict
          event.iteration event.decision event.evidence

/-- `_replay_non_keep_events` over the sorted iterations from the cursor on: a
gap or a KEEP is refused. -/
def replayNonKeepEvents (policy : StallPolicy) : RunState -> List ResultEvent -> Option RunState
  | state, [] => some state
  | state, event :: rest =>
    if event.iteration = state.nextIteration then
      (state.applyReplayedNonKeep event policy).bind (replayNonKeepEvents policy · rest)
    else none

/-- `_plan_resume_recovery` without a pending KEEP; two results of one
iteration are refused. -/
def planResumeRecovery (log : List ResultEvent) (policy : StallPolicy) : Option RunState :=
  if (log.map ResultEvent.iteration).Nodup then
    replayNonKeepEvents policy state ((log.filter fun event =>
        decide (state.nextIteration ≤ event.iteration)).insertionSort
        fun a b => a.iteration ≤ b.iteration)
  else none

/-- The fields a replay has to get right: the cursor, counters, best, streaks,
circuit, phase, relay, diversification flag and pins, with the rest blanked. -/
def progress : RunState :=
  { state with
    baselineWallMs := none, baselineCaseTimes := [], bestCaseTimes := []
    unscoredCases := [], headCommit := "" }

/-- The state a session has in memory when an iteration's outcome is recorded:
the saved one, with the iteration opened and its planning reduced. -/
def inSession (disk : RunState) (iteration : Nat) (completed : Bool) : RunState :=
  { disk with iteration := iteration, diversificationCycleCompleted := completed }

variable {state : RunState}

theorem planResumeRecovery_append {log : List ResultEvent} {event : ResultEvent}
    (policy : StallPolicy) (hlog : (log.map ResultEvent.iteration).Nodup)
    (hold : forall old, old ∈ log -> old.iteration < state.nextIteration)
    (hcursor : event.iteration = state.nextIteration) :
    state.planResumeRecovery (log ++ [event]) policy = state.applyReplayedNonKeep event policy := by
  have hnodup : ((log ++ [event]).map ResultEvent.iteration).Nodup := by
    rw [List.map_append, List.nodup_append]
    refine ⟨hlog, List.nodup_singleton _, ?_⟩
    intro i hi j hj hsame
    rcases List.mem_map.mp hi with ⟨old, hmem, hiter⟩
    rw [List.map_singleton, List.mem_singleton] at hj
    have hlt := hold old hmem
    lia
  have hfilter : (log ++ [event]).filter (fun event =>
      decide (state.nextIteration ≤ event.iteration)) = [event] := by
    rw [List.filter_append, List.filter_eq_nil_iff.mpr]
    · rw [List.filter_singleton, hcursor]
      simp
    · intro old hmem
      simpa using hold old hmem
  unfold planResumeRecovery
  rw [if_pos hnodup, hfilter]
  change replayNonKeepEvents policy state [event] = _
  rw [replayNonKeepEvents, if_pos hcursor]
  exact Option.bind_fun_some _

end RunState

open RunState

variable (loop : LoopMemory)

/-- A rejected candidate that is slower than the incumbent over all cases and
faster on some. -/
def LoopMemory.WonCaseOnly (result : Reverted) : Prop :=
  result.decision = .revertPerf ∧ ¬ (loop.evidence result).Beats ∧ (loop.evidence result).WinsCase

theorem pins_iff_replayed {loop : LoopMemory} {result : Reverted}
    (state : RunState) (h : ¬ loop.WonCaseOnly result) :
    result.decision = .revertPerf ∧
        ((loop.evidence result).Beats ∨ (loop.evidence result).WinsCase) <->
      result.decision = .revertPerf ∧ ((loop.resultEvent state result).evidence.Beats ∨
          (loop.resultEvent state result).evidence.WinsCase) := by
  constructor
  · intro hpins
    refine ⟨hpins.1, Or.inl ?_⟩
    by_contra hbeats
    rcases hpins.2 with hyes | hwins
    · exact hbeats hyes
    · exact h ⟨hpins.1, hbeats, hwins⟩
  · intro hpins
    rcases hpins with ⟨hdecision, hbeats | hwins⟩
    · exact ⟨hdecision, Or.inl hbeats⟩
    · cases hwins

theorem mem_pin (pins : List Nat) (best iteration : Nat) : iteration ∈ pin pins best iteration := by
  unfold pin
  split
  · rename_i hpinned
    exact hpinned
  have hrecent : (pins ++ [iteration]).drop ((pins ++ [iteration]).length - maxPinnedIterations) =
      pins.drop (pins.length + 1 - maxPinnedIterations) ++ [iteration] := by
    rw [List.length_append, List.length_singleton, List.drop_append_of_le_length]
    unfold maxPinnedIterations
    lia
  dsimp only
  rw [hrecent]
  split
  · rename_i hbest
    cases hdrop : pins.drop (pins.length + 1 - maxPinnedIterations) with
    | cons first rest => simp
    | nil =>
      -- Nothing was pinned before, so nothing is left out.
      have hlength := List.drop_eq_nil_iff.mp hdrop
      unfold maxPinnedIterations at hlength
      have hnil : pins = [] := List.length_eq_zero_iff.mp (by lia)
      subst hnil
      exact absurd hbest.1 hbest.2
  · simp

/-- The live session and the replay pin alike exactly if the candidate did not
win a case alone, or its iteration is pinned already. -/
theorem pins_eq_replayed_iff (result : Reverted) (state : RunState) (pins : List Nat) (best : Nat) :
    (if result.decision = .revertPerf ∧ ((loop.resultEvent state result).evidence.Beats ∨
          (loop.resultEvent state result).evidence.WinsCase) then
        pin pins best result.iteration else pins) = (if result.decision = .revertPerf ∧
          ((loop.evidence result).Beats ∨ (loop.evidence result).WinsCase) then
        pin pins best result.iteration else pins) <->
    (loop.WonCaseOnly result -> result.iteration ∈ pins) := by
  by_cases hwon : loop.WonCaseOnly result
  · rcases hwon with ⟨hdecision, hbeats, hwins⟩
    have hreplayed : ¬ (result.decision = .revertPerf ∧
        ((loop.resultEvent state result).evidence.Beats ∨
          (loop.resultEvent state result).evidence.WinsCase)) := by
      intro hpins
      rcases hpins.2 with hyes | hcase
      · exact hbeats hyes
      · cases hcase
    rw [if_neg hreplayed, if_pos ⟨hdecision, Or.inr hwins⟩]
    constructor
    · intro hsame _
      rw [hsame]
      exact mem_pin _ _ _
    · intro hpinned
      exact (if_pos (hpinned ⟨hdecision, hbeats, hwins⟩)).symm
  · rw [if_congr (pins_iff_replayed state hwon) rfl rfl]
    exact iff_of_true rfl (fun h => absurd h hwon)

theorem progress_eq_iff {planned saved : RunState} (h : planned.progress =
      { saved.progress with pinnedIterations := planned.pinnedIterations }) :
    planned.progress = saved.progress <-> planned.pinnedIterations = saved.pinnedIterations := by
  constructor
  · intro hsame
    have hpins := congrArg RunState.pinnedIterations hsame
    exact hpins
  · intro hpins
    rw [h, hpins]
    rfl

theorem progress_applyReplayedNonKeep {disk : RunState}
    {result : Reverted} (policy : StallPolicy) (completed : Bool)
    (hcursor : result.iteration = disk.nextIteration) :
    exists planned saved, disk.applyReplayedNonKeep (loop.resultEvent
        (disk.inSession result.iteration completed) result) policy = some planned ∧
      loop.recordOutcome (disk.inSession result.iteration completed) result policy = some saved ∧
      (planned.progress = saved.progress <->
        (loop.WonCaseOnly result -> result.iteration ∈ disk.pinnedIterations)) := by
  have hkeep : (loop.resultEvent (disk.inSession result.iteration completed)
      result).decision ≠ .keep := result.notKept
  have hnext : disk.nextIteration ≤ result.iteration := Nat.le_of_eq hcursor.symm
  unfold applyReplayedNonKeep LoopMemory.recordOutcome
  rw [if_neg hkeep, applyIteration_of_le hnext, applyIteration_of_le hnext]
  refine ⟨_, _, rfl, rfl, ?_⟩
  rw [reduced_of_not_kept _ _ _ rfl]
  refine (progress_eq_iff ?_).trans (pins_eq_replayed_iff loop result _ _ _)
  dsimp only [recordDirectionVerdict, progress, LoopMemory.resultEvent]
  rw [getD_orNone]
  rfl

/-- A resume computes from the log what the killed session was about to save
exactly if the candidate did not win a case alone, or its iteration is pinned
already. -/
theorem replay_matches_live (loop : LoopMemory) (disk : RunState)
    (log : List ResultEvent) (result : Reverted) (policy : StallPolicy)
    (completed : Bool) (hlog : (log.map ResultEvent.iteration).Nodup)
    (hold : forall old, old ∈ log -> old.iteration < disk.nextIteration)
    (hcursor : result.iteration = disk.nextIteration) :
    exists planned saved,
      disk.planResumeRecovery (log ++ [loop.resultEvent
        (disk.inSession result.iteration completed) result]) policy = some planned ∧
      loop.recordOutcome (disk.inSession result.iteration completed) result policy = some saved ∧
      (planned.progress = saved.progress <->
        (loop.WonCaseOnly result -> result.iteration ∈ disk.pinnedIterations)) := by
  rw [planResumeRecovery_append policy hlog hold hcursor]
  exact progress_applyReplayedNonKeep loop policy completed hcursor

def incumbentLoop : LoopMemory where
  baselineWallMs := some 10
  bestWallMs := some 5
  bestMeanCaseSpeedup := some 2
  baselineCaseTimes := [("a", 10), ("b", 10)]
  bestCaseTimes := [("a", 5), ("b", 5)]
  unscoredCases := []

def incumbentState : RunState where
  iteration := 1
  nextIteration := 2
  cumulative := { iterations := 1, kept := 1 }
  phase := .exploit
  best :=
    { iteration := 1, wallMs := some 5, meanCaseSpeedup := some 2
      commitHash := "c1", source := "iteration" }
  pinnedIterations := [1]

def slowerCandidate (first : Rat) : Reverted where
  iteration := 2
  decision := .revertPerf
  wallMs := some 7
  meanCaseSpeedup := some (7 / 4)
  benchDetail := some
    { caseTimes := [("a", first), ("b", 10)]
      spreads := [("a", 1 / 10), ("b", 1 / 10)] }
  commitHash := ""
  agentProfileId := "claude"
  plan := "unroll"
  notKept := by decide

theorem slower_replayed :
    exists planned saved,
      incumbentState.planResumeRecovery ([] ++ [incumbentLoop.resultEvent
        (incumbentState.inSession 2 true) (slowerCandidate 6)]) {} = some planned ∧
      incumbentLoop.recordOutcome (incumbentState.inSession 2 true)
        (slowerCandidate 6) {} = some saved ∧
      planned.progress = saved.progress := by
  have hold : forall old : ResultEvent, old ∈ [] ->
      old.iteration < incumbentState.nextIteration := by
    intro old hold
    cases hold
  rcases replay_matches_live incumbentLoop incumbentState [] (slowerCandidate 6) {} true
      List.nodup_nil hold rfl with ⟨planned, saved, hplanned, hsaved, hsame⟩
  refine ⟨planned, saved, hplanned, hsaved, hsame.mpr ?_⟩
  intro hcase
  exact absurd hcase.2.2 (by decide +kernel)

/-- The live session pins a slower candidate that won case `a`; the event it
left does not carry the case times, so the resume does not. -/
theorem won_case_not_replayed :
    (incumbentState.planResumeRecovery [incumbentLoop.resultEvent
      (incumbentState.inSession 2 true) (slowerCandidate 4)] {}).map
        RunState.pinnedIterations = some [1] ∧
    (incumbentLoop.recordOutcome (incumbentState.inSession 2 true)
      (slowerCandidate 4) {}).map RunState.pinnedIterations = some [1, 2] := by
  decide +kernel

end ForgeLoop
end Hyperloom
