import Hyperloom.Storage.Schema

/-!
# The next phase

The decision the phase machine takes on the frozen facts of one tick.  Two
global rules come first, the stop reason or deadline that forces CLOSE and the
target that jumps to SWEEP; each phase then has a predicate of its own.
-/

namespace Hyperloom
namespace Phases

open Storage

/-!
## The phase chain
-/

/-- `PHASE_NAMES`, in their order. -/
inductive Phase where
  | prelude
  | enablement
  | frameworkAgent
  | kernelAgent
  | sweep
  | close
deriving DecidableEq

def Phase.index : Phase -> Nat
  | prelude => 0
  | enablement => 1
  | frameworkAgent => 2
  | kernelAgent => 3
  | sweep => 4
  | close => 5

def stopReasonVocab : List String :=
  ["target_reached", "time_exhausted", "max_ticks", "baseline_failed",
    "emergency", "coordinator_exception", "signal", "unknown", "custom",
    "prelude_baseline_failed", "baseline_over_latency_budget",
    "baseline_over_power_budget", "prelude_cold_anchor_low_budget",
    "prelude_budget_exhausted", "time_exhausted_during_prelude",
    "warm_replay_rollback_failed", "active_inferencex_checkout_missing",
    "sweep_done", "sweep_failed", "framework_agent_phase_done",
    "global_converged", "model_context_window_too_small",
    "unsupported_model_arch", "model_config_incompatible",
    "baseline_arg_error", "enablement_attempts_exhausted",
    "baseline_accuracy_failed", "environment_fault", "host_gpus_unavailable",
    "server_argv_invalid", "supervisor_coordinator_died",
    "supervisor_tick_stalled", "agentx_client_unavailable",
    "patch_recovery_incomplete", "backend_unhealthy"]

/-- `is_valid_stop_reason`, of a text without blanks around it. -/
def isValidStopReason (value : String) : Bool := stopReasonVocab.contains value

/-- `ESCALATE_HINT_VOCAB`. -/
inductive EscalateHint where
  | skipToKernel
  | skipToSweep
deriving DecidableEq

def EscalateHint.text : EscalateHint -> String
  | skipToKernel => "skip_to_kernel"
  | skipToSweep => "skip_to_sweep"

/-!
## Predicate inputs

`workflow_predicate_inputs` fills in the facts of the current phase only, so
the facts determine the phase they were frozen in.
-/

structure GlobalInputs where
  stopReason : String := ""
  closingPhase : Bool := false
  targetReachedAt : String := ""
deriving DecidableEq

structure RunFlags where
  kernelEnabled : Bool := true
  frameworkAgentEnabled : Bool := true
  enablementEnabled : Bool := false
deriving DecidableEq

/-- `_initial_analysis_inputs` and the throughput they are judged with. -/
structure AnchorFacts where
  tput : Rat
  initialAnalysisPending : Bool := false
  analysisAffordableSec : Option Rat := none
deriving DecidableEq

structure PreludeBaseline extends AnchorFacts where
  failureStreak : Int := 0
  failuresThisLeg : Int := 0
  warmReplayStatus : String := ""
  measureRoundDropped : Bool := false
  sessionUsableSec : Option Rat := none
  phaseSpentSec : Rat := 0
  runtimeSec : Option Rat := none
  postReadyRuntimeSec : Option Rat := none
  warmRuntimeSec : Option Rat := none
  evalRuntimeSec : Option Rat := none
deriving DecidableEq

structure EnablementPending where
  validationPending : Bool := false
  enablementInFlight : Bool := false
deriving DecidableEq

structure BudgetFacts where
  remainingSec : Option Rat
  entryElapsedSec : Rat := 0
  cumulativeElapsedSec : Rat := 0
deriving DecidableEq

/-- `_config_lever_evidence`, `_patch_lever_evidence` and the work counts. -/
structure LeverFacts where
  recentKeepGainPct : Rat := 0
  keepGainThresholdPct : Rat := 0
  emptyStreak : Int := 0
  emptyStreakThreshold : Int := 0
  lookback : Int := 0
  sourceConsecutiveNoKeep : Int := 0
  sourceThreshold : Int := 0
  sourceCandidatesExhausted : Bool := false
  attemptCount : Int := 0
  specialistRoundCount : Int := 0
deriving DecidableEq

/-- The pending work `_kernel_predicate_inputs` reads; the GEAK fields are
there for that optimizer only. -/
structure KernelPending where
  kernelWorkPending : Bool
  kernelAgentInFlight : Bool
  optimizer : String
  controllerCycle : Int
  controllerStatus : String
  controllerPatchCount : Int
  controllerTaskCount : Int
  controllerReason : String
  geakStatus : Option String
  geakErrorClass : Option String
  geakError : Option String
deriving DecidableEq

structure KernelPlateau where
  idleTicks : Int
  idleSinceUnix : Rat
  idleMaxTicks : Int
  idleMinSeconds : Rat
  rejectedKernelCount : Int
deriving DecidableEq

structure ReloopFacts where
  currentGainPct : Rat
  gainAtCycleStartPct : Rat
  minGainPct : Rat
  priorNoGainCycleStreak : Int
  noGainCycles : Int
  saturatedDirections : List (String × Bool) := []
  sessionRemainingSec : Option Rat := none
  minRemainingSec : Rat := 0
deriving DecidableEq

structure SweepResult where
  status : String
  wasSkipped : Bool := false
  budgetExhausted : Bool := false
  skipReason : String := ""
  successfulPairs : Int := 0
  summaryPresent : Bool := false
  reloop : ReloopFacts
deriving DecidableEq

inductive PhaseFacts where
  | prelude (baseline : PreludeBaseline) (preludeWorkInFlight : Bool)
  | enablement (baseline : AnchorFacts) (pending : EnablementPending)
  | frameworkAgent (plateau : LeverFacts) (budget : BudgetFacts) (roundFits : Bool)
  | kernelAgent (pending : KernelPending) (plateau : KernelPlateau) (budget : BudgetFacts)
  | sweep (result : SweepResult) (budget : BudgetFacts)
  | close
deriving DecidableEq

def PhaseFacts.phase : PhaseFacts -> Phase
  | prelude _ _ => .prelude
  | enablement _ _ => .enablement
  | frameworkAgent _ _ _ => .frameworkAgent
  | kernelAgent _ _ _ => .kernelAgent
  | sweep _ _ => .sweep
  | close => .close

structure PredicateInputs where
  nowUnix : Unix
  globals : GlobalInputs
  hint : Option EscalateHint
  macroCycle : Int
  runFlags : RunFlags
  facts : PhaseFacts
deriving DecidableEq

variable (inputs : PredicateInputs)

def PredicateInputs.currentPhase : Phase := inputs.facts.phase

/-- The `baseline_tput` the inputs were frozen with, where they hold one. -/
def PredicateInputs.baselineTput : Option Rat :=
  match inputs.facts with
  | .prelude baseline _ => some baseline.tput
  | .enablement baseline _ => some baseline.tput
  | _ => none

/-- The target, reason and evidence of a decision; `predicate_inputs`, which
the source adds to the evidence, is kept beside it. -/
structure Transition where
  target : Phase
  reason : String
  evidence : Evidence

/-!
## Exits shared by the phases
-/

/-- `round(x, digits)`. -/
def roundTo (digits : Nat) (x : Rat) : Json := .real (roundHalfEven (x * 10 ^ digits) / 10 ^ digits)

def withBudgetTiming (budget : BudgetFacts) (evidence : Evidence) : Evidence :=
  evidence ++ [("entry_elapsed_seconds", .real budget.entryElapsedSec),
      ("cumulative_elapsed_seconds", .real budget.cumulativeElapsedSec)]

def budgetExit (budget : BudgetFacts) (exhaustedReason : String)
    (evidence : Evidence) : Option (String × Evidence) :=
  match budget.remainingSec with
  | some remaining =>
    if remaining ≤ 0 then
      some (exhaustedReason, withBudgetTiming budget evidence)
    else none
  | none => none

def holdsForInitialAnalysis (baseline : AnchorFacts) : Bool :=
  baseline.initialAnalysisPending &&
    match baseline.analysisAffordableSec with
    | none => true
    | some affordable => decide (0 < affordable)

variable (flags : RunFlags)

def postPreludeTarget : Phase :=
  if flags.frameworkAgentEnabled then .frameworkAgent
  else if flags.kernelEnabled then .kernelAgent
  else .sweep

def anchoredBaselineTransition (baseline : AnchorFacts)
    (viability : Evidence) (reason : String) : Transition where
  target := postPreludeTarget flags
  reason := reason
  evidence :=
    [("baseline_tput", .real baseline.tput)] ++ viability ++
      if postPreludeTarget flags ≠ .frameworkAgent then
        [("optimize_skipped", .bool true)]
      else []

/-!
## PRELUDE
-/

def hotPassCostSec (warm postReady evaluation : Option Rat) : Option Rat :=
  match warm, postReady with
  | some cost, _ => some cost
  | none, none => none
  | none, some cost =>
    match evaluation with
    | some enclosed => if enclosed < cost then some (cost - enclosed) else some cost
    | none => some cost

variable (baseline : PreludeBaseline)

/-- The round `_prelude_viability` prices and what it was priced by. -/
def pricedRound : Option Rat × String :=
  match baseline.runtimeSec, baseline.postReadyRuntimeSec with
  | some runtime, some postReady =>
    (some (max 0 (runtime - postReady) +
      baseline.warmRuntimeSec.getD postReady), "boot_plus_benchmark")
  | runtime, _ => (runtime, "cold_round")

def preludeViability : Evidence :=
  match baseline.sessionUsableSec, pricedRound baseline with
  | some usable, (some roundSec, pricedBy) =>
    [("session_usable_sec", roundTo 1 usable), ("measured_round_sec", roundTo 1 roundSec),
      ("priced_by", .str pricedBy), ("affordable_rounds", roundTo 2 (usable / roundSec)),
      ("fits_one_optimization_round", .bool (decide (roundSec ≤ usable)))]
  | _, _ => []

def measuredRoundSec : Option Rat :=
  match (preludeViability baseline).lookup "measured_round_sec" with
  | some (.real q) => if q = 0 then none else some q
  | _ => none

variable (inFlight : Bool)

def preludeWorkPending : Bool :=
  inFlight || baseline.warmReplayStatus == "in_flight"

def coldAnchorShortfall : Option Evidence :=
  if !baseline.measureRoundDropped || preludeWorkPending baseline inFlight then
    none
  else
    let benchmark := hotPassCostSec baseline.warmRuntimeSec
      baseline.postReadyRuntimeSec baseline.evalRuntimeSec
    let retry := baseline.runtimeSec.map (fun runtime => runtime + benchmark.getD 0)
    let useSec := (measuredRoundSec baseline).or baseline.runtimeSec
    match baseline.sessionUsableSec, retry, useSec with
    | some usable, some retry, some useSec =>
      if retry + useSec ≤ usable then none
      else
        some ([("terminal", .bool true), ("baseline_anchor", .str "cold"),
          ("retry_round_sec", roundTo 1 retry)] ++ preludeViability baseline)
    | _, _, _ => none

def preludeBudgetLine : Option Evidence :=
  if baseline.failuresThisLeg < 1 || preludeWorkPending baseline inFlight then
    none
  else
    match baseline.analysisAffordableSec with
    | none => none
    | some affordable =>
      if 0 < affordable then none
      else
        some [("terminal", .bool true),
          ("baseline_failures_this_leg", .int baseline.failuresThisLeg),
          ("baseline_failure_streak", .int baseline.failureStreak),
          ("prelude_affordable_sec", roundTo 1 affordable),
          ("session_usable_sec", roundTo 1 (baseline.sessionUsableSec.getD 0)),
          ("prelude_spent_sec", roundTo 1 baseline.phaseSpentSec)]

def baselineIsAnchored : Bool :=
  baseline.warmReplayStatus != "in_flight" && !baseline.measureRoundDropped &&
    decide (0 < baseline.tput)

/-- The exits of a PRELUDE whose baseline is not anchored. -/
def preludeOutOfBudget : Option Transition :=
  let reserveLine := (preludeBudgetLine baseline inFlight).map
    (fun evidence => ⟨.close, "prelude_budget_exhausted", evidence⟩)
  match baseline.sessionUsableSec with
  | some usable =>
    if usable ≤ 0 then
      some ⟨.close, "time_exhausted_during_prelude",
        [("terminal", .bool true), ("session_usable_sec", roundTo 1 usable),
          ("prelude_spent_sec", roundTo 1 baseline.phaseSpentSec)]⟩
    else reserveLine
  | none => reserveLine

def preludeTransition (baseline : PreludeBaseline) (inFlight : Bool) : Option Transition :=
  if 3 ≤ baseline.failureStreak then
    some ⟨.close, "prelude_baseline_failed", [("terminal", .bool true),
        ("baseline_failure_streak", .int baseline.failureStreak)]⟩
  else
    match coldAnchorShortfall baseline inFlight with
    | some shortfall =>
      some ⟨.close, "prelude_cold_anchor_low_budget", shortfall⟩
    | none =>
      if flags.enablementEnabled && decide (1 ≤ baseline.failureStreak) then
        some ⟨.enablement, "enablement_entered",
          [("baseline_failure_streak", .int baseline.failureStreak)]⟩
      else if baselineIsAnchored baseline then
        if holdsForInitialAnalysis baseline.toAnchorFacts then none
        else
          some (anchoredBaselineTransition flags baseline.toAnchorFacts
            (preludeViability baseline) "prelude_done")
      else preludeOutOfBudget baseline inFlight

/-!
## ENABLEMENT
-/

def enablementTransition (baseline : AnchorFacts)
    (pending : EnablementPending) : Option Transition :=
  if decide (0 < baseline.tput) && !pending.validationPending && !pending.enablementInFlight then
    if holdsForInitialAnalysis baseline then none
    else some (anchoredBaselineTransition flags baseline [] "enablement_done")
  else none

/-!
## FRAMEWORK_AGENT
-/

variable (plateau : LeverFacts)

/-- `framework_plateau`'s verdict on the config arm. -/
def LeverFacts.configDry : Bool :=
  decide (plateau.recentKeepGainPct < plateau.keepGainThresholdPct) &&
    decide (plateau.emptyStreakThreshold ≤ plateau.emptyStreak)

/-- `framework_plateau`'s verdict on the source arm. -/
def LeverFacts.sourceDry : Bool :=
  decide (plateau.sourceThreshold ≤ plateau.sourceConsecutiveNoKeep) ||
    plateau.sourceCandidatesExhausted

def LeverFacts.didWork : Bool :=
  decide (0 < plateau.attemptCount) || decide (0 < plateau.specialistRoundCount)

def LeverFacts.arms : Evidence :=
  [("recent_keep_gain_pct", .real plateau.recentKeepGainPct),
    ("keep_gain_threshold_pct", .real plateau.keepGainThresholdPct),
    ("empty_streak", .int plateau.emptyStreak),
    ("empty_streak_threshold", .int plateau.emptyStreakThreshold),
    ("lookback", .int plateau.lookback),
    ("source_consecutive_no_keep", .int plateau.sourceConsecutiveNoKeep),
    ("source_threshold", .int plateau.sourceThreshold),
    ("source_candidates_exhausted", .bool plateau.sourceCandidatesExhausted),
    ("config_arm_plateaued", .bool plateau.configDry),
    ("source_arm_plateaued", .bool plateau.sourceDry),
    ("switch_bottleneck", .bool (plateau.configDry || plateau.sourceDry))]

/-- The exits of `framework_exit` that are not its budget: a hint, both arms
dry, or no round that fits. -/
def advisoryExit (hint : Option EscalateHint) (plateau : LeverFacts)
    (budget : BudgetFacts) (roundFits : Bool) : Option (String × Evidence) :=
  if hint = some .skipToKernel && plateau.didWork then
    some ("optimize_no_more_leverage", plateau.arms ++ [("evidence", .str "llm_escalation"),
        ("hint", .str EscalateHint.skipToKernel.text)])
  else if hint = some .skipToSweep then
    some ("optimize_no_more_leverage", plateau.arms ++ [("evidence", .str "skip_to_sweep"),
        ("hint", .str EscalateHint.skipToSweep.text)])
  else if plateau.configDry && plateau.sourceDry then
    some ("optimize_no_more_leverage", plateau.arms ++
      [("evidence", .str "both_arms_plateaued"), ("plateau", .bool true)])
  else if !roundFits then
    some ("optimize_phase_budget_exhausted", withBudgetTiming budget plateau.arms ++
        [("evidence", .str "no_round_fits"),
          ("remaining_seconds", budget.remainingSec.elim .null .real)])
  else none

def frameworkExit (hint : Option EscalateHint) (plateau : LeverFacts)
    (budget : BudgetFacts) (roundFits : Bool) : Option (String × Evidence) :=
  (budgetExit budget "optimize_phase_budget_exhausted" plateau.arms).or
    (advisoryExit hint plateau budget roundFits)

def frameworkTransition (hint : Option EscalateHint)
    (plateau : LeverFacts) (budget : BudgetFacts) (roundFits : Bool) : Option Transition :=
  (frameworkExit hint plateau budget roundFits).map (fun normal =>
    if flags.kernelEnabled then ⟨.kernelAgent, normal.1, normal.2⟩
    else ⟨.sweep, normal.1, normal.2 ++ [("kernel_skipped", .bool true)]⟩)

/-!
## KERNEL_AGENT
-/

def controllerTerminalStatuses : List String :=
  ["completed", "failed", "no_opportunity", "no_result", "partial"]

variable (pending : KernelPending)

def controllerRoundSettled (macroCycle : Int) : Bool :=
  pending.optimizer == "forge" && pending.controllerCycle == macroCycle &&
    controllerTerminalStatuses.contains pending.controllerStatus

variable (plateau : KernelPlateau)

def kernelIdleExit (nowUnix : Unix) : Option (String × Evidence) :=
  if plateau.idleTicks < plateau.idleMaxTicks || plateau.idleSinceUnix ≤ 0 then
    none
  else
    let idleSeconds := max 0 (nowUnix - plateau.idleSinceUnix)
    if idleSeconds < plateau.idleMinSeconds then none
    else
      some ("kernel_no_more_leverage", [("evidence", .str "kernel_idle_no_progress"),
          ("idle_ticks", .int plateau.idleTicks), ("idle_max_ticks", .int plateau.idleMaxTicks),
          ("idle_seconds", roundTo 3 idleSeconds),
          ("idle_min_seconds", .real plateau.idleMinSeconds)])

/-- The exit of a KERNEL phase with nothing in flight. -/
def kernelSettledExit (macroCycle : Int) (nowUnix : Unix) : Option (String × Evidence) :=
  if pending.kernelWorkPending then kernelIdleExit plateau nowUnix
  else if controllerRoundSettled pending macroCycle then
    some ("kernel_controller_done", [("controller_status", .str pending.controllerStatus),
        ("patch_count", .int pending.controllerPatchCount),
        ("task_count", .int pending.controllerTaskCount),
        ("reason", .str pending.controllerReason)])
  else if pending.geakStatus = some "error" then
    some ("kernel_geak_failed", [("geak_status", .str "error"),
        ("error_class", pending.geakErrorClass.elim .null .str),
        ("error", pending.geakError.elim .null .str)])
  else some ("kernel_no_more_leverage", [("evidence", .str "kernel_settled")])

def kernelExit (budget : BudgetFacts) (macroCycle : Int) (nowUnix : Unix) :
    Option (String × Evidence) :=
  let exhausted := budgetExit budget "kernel_phase_budget_exhausted"
    [("rejected_kernel_count", .int plateau.rejectedKernelCount)]
  if pending.kernelAgentInFlight then exhausted
  else (kernelSettledExit pending plateau macroCycle nowUnix).or exhausted

def kernelTransition (budget : BudgetFacts) (macroCycle : Int) (nowUnix : Unix) :
    Option Transition :=
  (kernelExit pending plateau budget macroCycle nowUnix).map
    (fun normal => ⟨.sweep, normal.1, normal.2⟩)

/-!
## SWEEP
-/

variable (result : SweepResult)

/-- Whether a skipped sweep counts as failed. -/
def SweepResult.skipFailed : Bool :=
  result.budgetExhausted || result.skipReason == "budget_exhausted_no_successful_pairs" ||
    (result.summaryPresent && decide (result.successfulPairs ≤ 0) && result.skipReason == "")

def sweepExit (budget : BudgetFacts) : Option (String × Evidence) :=
  let status : Evidence := [("sweep_status", .str result.status)]
  if result.status = "failed" then some ("sweep_failed", status)
  else if ["succeeded", "partial", "completed", "skipped"].contains result.status then
    if result.wasSkipped then
      let evidence := status ++ [("sweep_was_skipped", .bool true),
          ("sweep_skip_budget_exhausted", .bool result.budgetExhausted),
          ("sweep_skip_reason", .str result.skipReason)]
      some (if result.skipFailed then "sweep_failed" else "sweep_done", evidence)
    else some ("sweep_done", status)
  else
    budgetExit budget "sweep_budget_exhausted" (if result.status = "" then [] else status)

namespace ReloopFacts

variable (facts : ReloopFacts)

def gained : Bool :=
  decide (facts.minGainPct < facts.currentGainPct - facts.gainAtCycleStartPct)

def streak : Int :=
  if facts.gained then 0 else facts.priorNoGainCycleStreak + 1

end ReloopFacts

variable (facts : ReloopFacts)

/-- `_reloop_block_evidence`: the rule that refuses another macro-cycle. -/
def reloopBlocked (globals : GlobalInputs) : Option (String × Evidence) :=
  if globals.targetReachedAt ≠ "" then some ("target_reached", [])
  else if facts.saturatedDirections ≠ [] ∧ facts.saturatedDirections.all Prod.snd then
    some ("all_directions_saturated", [("saturated_directions", .arr ((facts.saturatedDirections.map
        Prod.fst).mergeSort.map .str))])
  else if facts.noGainCycles ≤ facts.streak then some ("global_converged", [])
  else none

/-- What `_reloop_decision` returns: the rule that blocks the next cycle, none
when it may open, and the evidence. -/
structure ReloopDecision where
  blocked : Option String
  evidence : Evidence

def reloopDecision (globals : GlobalInputs) (cycle : Int) : ReloopDecision :=
  let evidence : Evidence :=
    [("macro_cycle", .int cycle), ("min_gain_pct", roundTo 6 facts.minGainPct), ("cycle_gain_delta",
        roundTo 6 (facts.currentGainPct - facts.gainAtCycleStartPct)),
      ("cycle_gained", .bool facts.gained), ("no_gain_cycle_streak_effective", .int facts.streak)]
  let minimum : Evidence :=
    [("min_remaining_sec_effective", roundTo 2 facts.minRemainingSec)]
  let opens : ReloopDecision :=
    ⟨none, evidence ++ minimum ++ [("reloop", .bool true), ("next_cycle", .int (cycle + 1))]⟩
  match reloopBlocked facts globals with
  | some (rule, details) =>
    ⟨some rule, evidence ++ [("reloop_blocked", .str rule)] ++ details⟩
  | none =>
    match facts.sessionRemainingSec with
    | some remaining =>
      if remaining < facts.minRemainingSec then
        ⟨some "insufficient_remaining", evidence ++ minimum ++
          [("reloop_blocked", .str "insufficient_remaining"),
            ("session_remaining_seconds", roundTo 2 remaining)]⟩
      else opens
    | none => opens

def reloopBlockTerminals : List (String × String) :=
  [("global_converged", "global_converged"), ("all_directions_saturated", "global_converged"),
    ("target_reached", "target_reached"), ("insufficient_remaining", "time_exhausted")]

variable (flags : RunFlags)

/-- The reason SWEEP closes with for the rule that blocked the next cycle. -/
def blockTerminal (blocked : String) : Option String :=
  if flags.frameworkAgentEnabled || blocked == "target_reached" then
    reloopBlockTerminals.lookup blocked
  else none

/-- The CLOSE of a sweep that opens no further cycle. -/
def sweepClose (exitReason : String) (evidence : Evidence) (blocked : String) : Transition :=
  match blockTerminal flags blocked with
  | some terminalReason =>
    ⟨.close, terminalReason, evidence ++ [("terminal", .bool true)]⟩
  | none => ⟨.close, exitReason, evidence⟩

def sweepTransition (globals : GlobalInputs)
    (macroCycle : Int) (result : SweepResult) (budget : BudgetFacts) : Option Transition :=
  match sweepExit result budget with
  | none => none
  | some (exitReason, exitEvidence) =>
    if exitReason = "sweep_failed" then
      some ⟨.close, exitReason, exitEvidence⟩
    else
      let decision := reloopDecision result.reloop globals macroCycle
      if decision.blocked = none ∧ flags.frameworkAgentEnabled then
        some ⟨.frameworkAgent, "cycle_reloop",
          exitEvidence ++ decision.evidence ++ [("loopback", .bool true)]⟩
      else
        some (sweepClose flags exitReason (exitEvidence ++ decision.evidence)
          (decision.blocked.getD ""))

/-!
## The decision
-/

variable (inputs : PredicateInputs)

def terminalCloseTransition : Option Transition :=
  if inputs.currentPhase = .close then none
  else if inputs.globals.stopReason ≠ "" then
    some ⟨.close, inputs.globals.stopReason, [("terminal", .bool true),
        ("reason_origin", .str "shared_state.stop_reason")] ++
        if isValidStopReason inputs.globals.stopReason then []
        else [("vocab", .str "unknown")]⟩
  else if inputs.globals.closingPhase then
    some ⟨.close, "time_exhausted",
      [("terminal", .bool true), ("reason_origin", .str "closing_phase")]⟩
  else none

def phaseTransition : Option Transition :=
  match inputs.facts with
  | .prelude baseline inFlight =>
    preludeTransition inputs.runFlags baseline inFlight
  | .enablement baseline pending =>
    enablementTransition inputs.runFlags baseline pending
  | .frameworkAgent plateau budget roundFits =>
    frameworkTransition inputs.runFlags inputs.hint plateau budget roundFits
  | .kernelAgent pending plateau budget =>
    kernelTransition pending plateau budget inputs.macroCycle inputs.nowUnix
  | .sweep result budget =>
    sweepTransition inputs.runFlags inputs.globals inputs.macroCycle result budget
  | .close => none

def replayNextPhase : Option Transition :=
  match terminalCloseTransition inputs with
  | some forced => some forced
  | none =>
    if inputs.globals.targetReachedAt ≠ "" ∧ Phase.enablement.index ≤ inputs.currentPhase.index ∧
        inputs.currentPhase.index < Phase.sweep.index then
      some ⟨.sweep, "target_reached", [("target_reached_at", .str inputs.globals.targetReachedAt)]⟩
    else phaseTransition inputs

end Phases
end Hyperloom
