import Hyperloom.Common.Value

/-!
# Graded axes and session constraints

`perf_metric`: the axes a candidate is compared on, whether two rounds measured
the same work, and the latency, power and evidence constraints a session may
veto a candidate with.
-/

namespace Hyperloom
namespace Common

/-!
## Axes
-/

def gradedIntvty : String := "e2e_norm_intvty_p90"
def gradedIntvtyP50 : String := "e2e_norm_intvty_p50"
def gradedTotal : String := "total_throughput"
def gradedOutput : String := "output_throughput"
def gradedOutputPerGpu : String := "output_tput_per_gpu"
def gradedDuration : String := "duration_seconds"
def gradedErrorRate : String := "request_error_rate"
def gradedUnservedRequests : String := "graded_unserved_requests"
def gradedRequestsTotal : String := "graded_requests_total"
def gradedIntvtyP50Checkpoint : String := "e2e_norm_intvty_p50_1800s"

def agentxEvidence : List String :=
  ["benchmark_backend", "benchmark_valid", "diagnostic_only", "workload_identity"]

def nonNegative (value : Value) : Option PyFloat :=
  match value.number? with
  | some x => if PyFloat.le (.finite 0) x then some x else none
  | none => none

structure PerfSnapshot where
  intvty : Rat
  intvtyP50 : Rat
  total : Rat
  output : Option Rat
  duration : Option Rat
  errorRate : Option PyFloat
  unservedRequests : Option PyFloat
  requestsTotal : Option Rat
deriving DecidableEq

variable (py : Python) (source : Record)

def firstPositive (key fallback : String) : Option Rat :=
  (optionalPositiveFloat py (source.read key)).or (optionalPositiveFloat py (source.read fallback))

/-- The total, or the sum of input and output when it is missing. -/
def totalTput : Option Rat :=
  match firstPositive py source gradedTotal "total_token_throughput" with
  | some total => some total
  | none =>
    match optionalPositiveFloat py (source.read "input_throughput"),
      firstPositive py source gradedOutput "tput" with
    | some inp, some out => some (inp + out)
    | _, _ => none

def perfSnapshotFromMapping : Option PerfSnapshot :=
  match optionalPositiveFloat py (source.read gradedIntvty),
    optionalPositiveFloat py (source.read gradedIntvtyP50), totalTput py source with
  | some intvty, some intvtyP50, some total =>
    some
      { intvty := intvty
        intvtyP50 := intvtyP50
        total := total
        output := firstPositive py source gradedOutput "tput"
        duration := firstPositive py source gradedDuration "duration"
        errorRate := nonNegative (source.read gradedErrorRate)
        unservedRequests := nonNegative (source.read gradedUnservedRequests)
        requestsTotal := optionalPositiveFloat py (source.read gradedRequestsTotal) }
  | _, _, _ => none

def outputTputOf : Rat :=
  (firstPositive py source gradedOutput "tput").getD 0

def positiveAxes (keys : List String) : Record :=
  keys.filterMap (fun key =>
    (optionalPositiveFloat py (source.read key)).map (fun q =>
      (key, Value.float (.finite q))))

def gradedAxesOf : Record :=
  positiveAxes py source [gradedIntvty] ++
  ((firstPositive py source gradedTotal "total_token_throughput").map (fun q =>
    (gradedTotal, Value.float (.finite q)))).toList ++ positiveAxes py source
    ["input_throughput", "ttft_p50_ms", "ttft_p90_ms", "tpot_p50_ms",
      "tpot_p90_ms", gradedIntvtyP50, gradedIntvtyP50Checkpoint,
      gradedOutputPerGpu, gradedRequestsTotal] ++
  ((firstPositive py source gradedDuration "duration").map (fun q =>
    (gradedDuration, Value.float (.finite q)))).toList ++
  [gradedErrorRate, gradedUnservedRequests].filterMap (fun key =>
    (nonNegative (source.read key)).map (fun x => (key, Value.float x))) ++
  (agentxEvidence.filter (fun key => source.has key)).map (fun key =>
    (key, source.read key))

/-!
## Comparable rounds
-/

def withinBand (candidate anchor : Rat) (bandPct : PyFloat) : Bool :=
  if anchor ≤ 0 then true
  else
    PyFloat.le (PyFloat.scale anchor (PyFloat.subFrom 1 (PyFloat.scale (1 / 100) bandPct)))
      (.finite candidate)

def unservedRatePct (side : PerfSnapshot) : Option PyFloat :=
  match side.unservedRequests, side.requestsTotal with
  | some unserved, some total => some (PyFloat.scale (100 / total) unserved)
  | _, _ => none

variable (candidate anchor : PerfSnapshot)

def failureRatesPct : Option (PyFloat × PyFloat) :=
  match unservedRatePct candidate, unservedRatePct anchor with
  | some cand, some ref => some (cand, ref)
  | _, _ =>
    match candidate.errorRate, anchor.errorRate with
    | some cand, some ref => some (cand, ref)
    | _, _ => none

inductive Incomparable where
  | comparabilityInputsMissing
  | durationDrift
  | extraFailedRequests
deriving DecidableEq

def incomparabilityReason : Option Incomparable :=
  match failureRatesPct candidate anchor, candidate.duration, anchor.duration with
  | some (candRate, refRate), some candDuration, some refDuration =>
    if |candDuration / refDuration - 1| * 100 > 5 then some .durationDrift
    else if PyFloat.lt (refRate.add (1 / 2)) candRate then
      some .extraFailedRequests
    else none
  | _, _, _ => some .comparabilityInputsMissing

/-!
## Session constraints
-/

/-- The session's anchors, grading and budgets. `intvtyGrading` and `noisePct`
are what `resolved_grading` answers. -/
structure GradingState where
  baselineTput : PyFloat
  baselinePerf : Record := []
  currentBest : Record := []
  intvtyGrading : Bool := false
  noisePct : PyFloat := .finite 5
  agentxBackend : String := ""
  latencyBudgetMs : PyFloat := .finite 0
  powerBudgetW : PyFloat := .finite 0
  powerBudgetPerGpuW : List (String × PyFloat) := []

inductive Veto where
  | agentxEvidenceInvalid
  | agentxWorkloadMismatch
  | latencyBudgetExceeded
  | latencyUnmeasured
  | powerUnmeasured
  | gpuPowerBudgetExceeded
  | powerBudgetExceeded
deriving DecidableEq

def reading? (value : Value) : Option Rat :=
  match value.number? with
  | some (.finite q) => if q ≤ 0 then none else some q
  | _ => none

def ceilingVeto (observed : Value) (ceiling : PyFloat) (exceeded unmeasured : Veto) : Option Veto :=
  if ceiling.le (.finite 0) then none
  else
    match reading? observed with
    | none => some unmeasured
    | some value =>
      if ceiling.lt (.finite value) then some exceeded else none

def latencyVetoReason (observedMs : Value) (budgetMs : PyFloat) : Option Veto :=
  ceilingVeto observedMs budgetMs .latencyBudgetExceeded .latencyUnmeasured

/-- The readings of `power_veto_reason`, if every card has a usable one. -/
def powerReadings : Record -> Option (List (String × Rat))
  | [] => some []
  | (gpu, watts) :: rest =>
    match reading? watts, powerReadings rest with
    | some w, some readings => some ((gpu, w) :: readings)
    | _, _ => none

def powerVetoReason (byGpuW : Value) (totalBudgetW : PyFloat)
    (perGpuBudgetW : List (String × PyFloat)) : Option Veto :=
  let limits := perGpuBudgetW.filter (fun limit => limit.snd.isPos)
  if totalBudgetW.le (.finite 0) && limits.isEmpty then none
  else
    match byGpuW with
    | .dict [] => some .powerUnmeasured
    | .dict fields =>
      match powerReadings (Record.items fields) with
      | none => some .powerUnmeasured
      | some readings =>
        if limits.any (fun limit => readings.any (fun reading =>
            decide (reading.fst = limit.fst) && limit.snd.lt (.finite reading.snd))) then
          some .gpuPowerBudgetExceeded
        else if totalBudgetW.isPos && totalBudgetW.lt (.finite (readings.map Prod.snd).sum) then
          some .powerBudgetExceeded
        else none
    | _ => some .powerUnmeasured

variable (state : GradingState)

def nativeAgentxVeto : Option Veto :=
  if state.agentxBackend ≠ "magpie" &&
      !(source.read "benchmark_backend").isText "magpie_agentx" then none
  else if !(source.read "benchmark_valid").isTrue || !(source.read "diagnostic_only").isFalse then
    some .agentxEvidenceInvalid
  else
    let anchor :=
      if state.currentBest.isEmpty then state.baselinePerf else state.currentBest
    let identity := source.read "workload_identity"
    if !identity.truthy || !py.equal identity (anchor.read "workload_identity") then
      some .agentxWorkloadMismatch
    else none

def constraintVetoReason : Option Veto :=
  ((nativeAgentxVeto py source state).or
    (latencyVetoReason (source.read "e2el_mean_ms") state.latencyBudgetMs)).or
    (powerVetoReason (source.read "gpu_power_by_gpu_w") state.powerBudgetW state.powerBudgetPerGpuW)

def constraintFieldNames : List String :=
  ["e2el_mean_ms", "gpu_power_avg_w", "gpu_power_by_gpu_w",
    "benchmark_backend", "benchmark_valid", "diagnostic_only", "workload_identity"]

def constraintFields : Record :=
  constraintFieldNames.map (fun name => (name, source.read name))

end Common
end Hyperloom
