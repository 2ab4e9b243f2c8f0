import Mathlib.Algebra.Order.Ring.Rat
import Hyperloom.Library.Whitespace

/-!
# The run state of a campaign

`run_state.json` is the checkpoint a campaign resumes from.  Every finished
iteration is reduced into it by `apply_iteration`, in the live session and in
the replay of a resume alike.
-/

namespace Hyperloom
namespace ForgeLoop

/-- A dict of case times, in insertion order. -/
abbrev CaseTimes := List (String × Rat)

inductive Decision where
  | keep
  | revertPerf
  | revertValidation
  | revertValidationTimeout
  | revertValidationError
  | revertIntegrity
  | revertContended
  | crash
  | buildFailed
  | noChanges
  | apiError
  | agentError
  | orchestrationError
deriving DecidableEq

def Decision.infrastructure : Decision -> Bool
  | .apiError | .orchestrationError => true
  | _ => false

structure BestRecord where
  iteration : Nat := 0
  wallMs : Option Rat := none
  meanCaseSpeedup : Option Rat := none
  commitHash : String := ""
  plan : String := ""
  source : String := ""
deriving DecidableEq

structure StallState where
  noImprovementIters : Nat := 0
  unresolvedStallIters : Nat := 0
deriving DecidableEq

structure CumulativeCounters where
  iterations : Nat := 0
  kept : Nat := 0
  reverted : Nat := 0
deriving DecidableEq

inductive Circuit where
  | closed
  | opened
  | halfOpen
deriving DecidableEq

inductive SearchPhase where
  | explore
  | exploit
  | stalled
deriving DecidableEq

structure AgentRelayState where
  activeProfileId : String := ""
  activeNoImprovementStreak : Nat := 0
  blockageEpoch : Nat := 0
  interventionKind : String := ""
  previousProfileId : String := ""
  switchIteration : Nat := 0
  switchReason : String := ""
deriving DecidableEq

structure RunState where
  iteration : Nat := 0
  nextIteration : Nat := 1
  cumulative : CumulativeCounters := {}
  orchestrationErrorStreak : Nat := 0
  circuit : Circuit := .closed
  agentRelay : AgentRelayState := {}
  phase : SearchPhase := .explore
  diversificationCycleCompleted : Bool := false
  baselineWallMs : Option Rat := none
  baselineCaseTimes : CaseTimes := []
  bestCaseTimes : CaseTimes := []
  unscoredCases : List String := []
  best : BestRecord := {}
  stall : StallState := {}
  pinnedIterations : List Nat := []
  headCommit : String := ""
deriving DecidableEq

structure IterationVerdict where
  iteration : Nat
  decision : Decision
  kept : Bool
  wallMs : Option Rat := none
  commitHash : String := ""
  plan : String := ""
  meanCaseSpeedup : Option Rat := none

/-- The loop's baseline and incumbent once an iteration has been decided. -/
structure LoopStanding where
  baselineWallMs : Option Rat
  bestWallMs : Option Rat
  bestMeanCaseSpeedup : Option Rat

structure StallPolicy where
  stallThreshold : Nat := 3
  orchestrationErrorThreshold : Nat := 3

/-- A plan as the records keep it: `plan.strip()[:120]`. -/
def clipPlan (plan : String) : String := String.ofList ((Library.strip plan).toList.take 120)

/-!
## One finished iteration

The parts of `apply_iteration`, one for each part of the state it changes.
-/

def CumulativeCounters.after (counters : CumulativeCounters)
    (verdict : IterationVerdict) : CumulativeCounters where
  iterations := counters.iterations + 1
  kept := counters.kept + if verdict.kept then 1 else 0
  reverted := counters.reverted + if verdict.kept || verdict.decision.infrastructure then 0 else 1

variable (best : BestRecord)

def BestRecord.after (verdict : IterationVerdict) (standing : LoopStanding) : BestRecord :=
  if verdict.kept then
    { iteration := verdict.iteration
      wallMs := verdict.wallMs.or standing.bestWallMs
      meanCaseSpeedup := verdict.meanCaseSpeedup.or standing.bestMeanCaseSpeedup
      commitHash :=
        if verdict.commitHash = "" then best.commitHash else verdict.commitHash
      plan := clipPlan verdict.plan
      source := "iteration" }
  else best

def BestRecord.real : Bool :=
  decide (0 < best.iteration) || best.commitHash != ""

/-- The sync of the loop's own score into a best that is a real KEEP. -/
def BestRecord.synced (standing : LoopStanding) : BestRecord :=
  match standing.bestMeanCaseSpeedup with
  | none => best
  | some score =>
    if best.real && best.meanCaseSpeedup.all (fun old => decide (old ≤ score))
    then
      { best with meanCaseSpeedup := some score, wallMs := standing.bestWallMs }
    else best

/-- A KEEP ends the stall, any other attempt at the kernel lengthens it. -/
def StallState.after (stall : StallState) (verdict : IterationVerdict) : StallState :=
  if verdict.kept then {}
  else if verdict.decision.infrastructure then stall
  else
    { noImprovementIters := stall.noImprovementIters + 1
      unresolvedStallIters := stall.unresolvedStallIters + 1 }

def streakAfter (streak : Nat) (decision : Decision) : Nat :=
  if decision = .orchestrationError then streak + 1 else 0

/-- The circuit after an iteration that made `streak` errors in a row. -/
def Circuit.after (circuit : Circuit) (streak : Nat) (decision : Decision)
    (policy : StallPolicy) : Circuit :=
  if decision = .orchestrationError then
    if circuit = .halfOpen ∨ max 1 policy.orchestrationErrorThreshold ≤ streak
    then .opened
    else circuit
  else .closed

def maxPinnedIterations : Nat := 8

def pin (pins : List Nat) (best iteration : Nat) : List Nat :=
  if iteration ∈ pins then pins
  else
    let pinned := pins ++ [iteration]
    let recent := pinned.drop (pinned.length - maxPinnedIterations)
    if best ∈ pinned ∧ best ∉ recent then best :: recent.tail else recent

def phaseFor (stall : StallState) (policy : StallPolicy) : SearchPhase :=
  if max 1 policy.stallThreshold ≤ stall.unresolvedStallIters then .stalled
  else if best.real then .exploit
  else .explore

namespace RunState

variable (state : RunState) (verdict : IterationVerdict) (standing : LoopStanding)

variable (policy : StallPolicy)

def reduced : RunState :=
  let best := (state.best.after verdict standing).synced standing
  let stall := state.stall.after verdict
  let streak := streakAfter state.orchestrationErrorStreak verdict.decision
  { state with
    iteration := verdict.iteration
    nextIteration := verdict.iteration + 1
    cumulative := state.cumulative.after verdict
    baselineWallMs := standing.baselineWallMs.or state.baselineWallMs
    best := best
    stall := stall
    pinnedIterations :=
      if verdict.kept then
        pin state.pinnedIterations verdict.iteration verdict.iteration
      else state.pinnedIterations
    orchestrationErrorStreak := streak
    circuit := state.circuit.after streak verdict.decision policy
    phase := phaseFor best stall policy }

/-- `apply_iteration`; an iteration below the cursor is refused. -/
def applyIteration : Option RunState :=
  if verdict.iteration < state.nextIteration then none
  else some (state.reduced verdict standing policy)

theorem applyIteration_of_le {state : RunState} {verdict : IterationVerdict}
    {standing : LoopStanding} {policy : StallPolicy} (h : state.nextIteration ≤ verdict.iteration) :
    state.applyIteration verdict standing policy =
      some (state.reduced verdict standing policy) := by
  exact if_neg (Nat.not_lt.mpr h)

theorem reduced_of_not_kept {verdict : IterationVerdict}
    (standing : LoopStanding) (policy : StallPolicy) (h : verdict.kept = false) :
    state.reduced verdict standing policy = state.reduced
        { iteration := verdict.iteration, decision := verdict.decision
          kept := false } standing policy := by
  cases verdict
  cases h
  rfl

end RunState

/-!
## The agent relay
-/

def Decision.countsTowardBlockage : Decision -> Bool
  | .keep | .agentError | .apiError | .orchestrationError
  | .revertContended | .revertIntegrity => false
  | _ => true

namespace AgentRelayState

variable (relay : AgentRelayState)

/-- `apply_relay_keep`. -/
def keep : AgentRelayState :=
  { relay with
    activeNoImprovementStreak := 0, interventionKind := ""
    previousProfileId := "", switchIteration := 0, switchReason := "" }

/-- `apply_relay_search_outcome`. -/
def searchOutcome (decision : Decision) (producerProfileId : String) : AgentRelayState :=
  if producerProfileId = relay.activeProfileId ∧ decision.countsTowardBlockage = true then
    { relay with activeNoImprovementStreak := relay.activeNoImprovementStreak + 1 }
  else relay

end AgentRelayState

end ForgeLoop
end Hyperloom
