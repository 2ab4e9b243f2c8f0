import Mathlib.Data.Finset.Dedup
import Mathlib.Data.List.Sort
import Mathlib.Tactic.Linarith
import Hyperloom.ForgeLoop.RunState

/-!
# Scoring a candidate

A driver prints one `case_ms` line per case and may tag a case as unscored.
Three runs of it are aggregated, each is scored as the mean of its speedups
over the pristine baseline, and the mean of the three scores has to clear the
bar the incumbent sets.
-/

namespace Hyperloom
namespace ForgeLoop

/-!
## Reading a run
-/

/-- A match of `_CASE_MS_RE` whose time reads as a number. -/
structure CaseLine where
  caseId : String
  ms : Rat
  tag : String := ""

/-- What a driver run leaves: its exit code, the time its `wall_ms` samples or
its summary line give, and its case lines. -/
structure DriverOutput where
  exitCode : Int := 0
  representativeMs : Option Rat
  lines : List CaseLine

structure CaseTimings where
  caseTimes : CaseTimes := []
  unscored : List String := []
  duplicates : List String := []

/-- `dict[key] = value`. -/
def setCase (times : CaseTimes) (caseId : String) (ms : Rat) : CaseTimes :=
  if (times.lookup caseId).isSome then
    times.map fun entry => if entry.1 = caseId then (caseId, ms) else entry
  else times ++ [(caseId, ms)]

def parseCaseTimings (lines : List CaseLine) : CaseTimings :=
  lines.foldl (fun timings line =>
    { caseTimes := setCase timings.caseTimes line.caseId line.ms
      unscored :=
        if line.tag = "unscored" then timings.unscored ++ [line.caseId]
        else timings.unscored
      duplicates :=
        if (timings.caseTimes.lookup line.caseId).isSome then
          timings.duplicates ++ [line.caseId]
        else timings.duplicates }) {}

structure Measurement where
  medianMs : Rat
  caseTimes : CaseTimes
  unscored : List String

inductive BenchRefusal where
  | crashed (exitCode : Int)
  | duplicateCases (caseIds : List String)
  | noTimingData
  | noMeasurements
  | caseCoverageMismatch
  | noCaseTimings
  | unscoredMismatch
  | invalidTiming
  | coverageDiffers (missing unexpected : List String)
  | invalidBaseline (caseId : String)
  | invalidCandidate (caseId : String)
  | nothingScored
  | measurementCount
  | noMeanCaseSpeedup
deriving DecidableEq

/-- `bench_wallclock` on the output of its run. -/
def benchWallclock (output : DriverOutput) : Except BenchRefusal Measurement :=
  let timings := parseCaseTimings output.lines
  if output.exitCode ≠ 0 then .error (.crashed output.exitCode)
  else if timings.duplicates ≠ [] then
    .error (.duplicateCases timings.duplicates)
  else
    match output.representativeMs with
    | none => .error .noTimingData
    | some ms =>
      .ok
        { medianMs := ms, caseTimes := timings.caseTimes
          unscored := timings.unscored }

/-!
## Aggregating the runs
-/

def caseIds (times : CaseTimes) : List String := times.map Prod.fst

/-- Why `aggregate_benchmark_measurements` stops at a measurement. -/
def Measurement.refusal (previous : Option Measurement) (m : Measurement) : Option BenchRefusal :=
  if previous.any (fun p => decide
      ((caseIds p.caseTimes).toFinset ≠ (caseIds m.caseTimes).toFinset)) then
    some .caseCoverageMismatch
  else if m.caseTimes = [] then some .noCaseTimings
  else if previous.any (fun p =>
      decide (p.unscored.toFinset ≠ m.unscored.toFinset)) then
    some .unscoredMismatch
  else if m.caseTimes.any (fun entry => decide (entry.2 ≤ 0)) then
    some .invalidTiming
  else none

def firstRefusal : Option Measurement -> List Measurement -> Option BenchRefusal
  | _, [] => none
  | previous, m :: rest => (m.refusal previous).or (firstRefusal (some m) rest)

def median (values : List Rat) : Rat :=
  let sorted := values.insertionSort (· ≤ ·)
  let upper := sorted.getD (sorted.length / 2) 0
  if sorted.length % 2 = 1 then upper
  else (sorted.getD (sorted.length / 2 - 1) 0 + upper) / 2

structure Bench where
  medianMs : Rat
  caseTimes : CaseTimes
  unscored : List String
  measurements : List Measurement

def aggregateBenchmarkMeasurements (measurements : List Measurement) : Except BenchRefusal Bench :=
  match measurements.getLast? with
  | none => .error .noMeasurements
  | some last =>
    match firstRefusal none measurements with
    | some refusal => .error refusal
    | none =>
      .ok
        { medianMs := median (measurements.map Measurement.medianMs)
          caseTimes :=
            ((caseIds last.caseTimes).insertionSort (· ≤ ·)).map fun id =>
              (id, median (measurements.filterMap fun m => m.caseTimes.lookup id))
          unscored := last.unscored
          measurements := measurements }

/-- `measure_wallclock` on the outputs of its runs. -/
def measureWallclock (outputs : List DriverOutput) :
    Except BenchRefusal Bench := do
  aggregateBenchmarkMeasurements (← outputs.mapM benchWallclock)

/-!
## The score
-/

variable (baseline : CaseTimes)

def scoredCases (unscored : List String) : List String :=
  (caseIds baseline).filter fun id => decide (id ∉ unscored)

def caseSpeedup (caseTimes : CaseTimes) (entry : String × Rat) : Except BenchRefusal Rat :=
  if entry.2 ≤ 0 then .error (.invalidBaseline entry.1)
  else
    match caseTimes.lookup entry.1 with
    | none => .error (.invalidCandidate entry.1)
    | some ms =>
      if ms ≤ 0 then .error (.invalidCandidate entry.1)
      else .ok (entry.2 / ms)

def mean (values : List Rat) : Rat := values.sum / values.length

def calculateMeanCaseSpeedup (caseTimes baseline : CaseTimes)
    (unscored : List String) : Except BenchRefusal (Option Rat) :=
  if baseline = [] then .ok none
  else if caseTimes = [] then .error .noCaseTimings
  else if (caseIds caseTimes).toFinset ≠ (caseIds baseline).toFinset then
    .error (.coverageDiffers ((caseIds baseline).filter (· ∉ caseIds caseTimes))
      ((caseIds caseTimes).filter (· ∉ caseIds baseline)))
  else do
    let speedups ← (baseline.filter fun entry =>
      decide (entry.1 ∉ unscored)).mapM (caseSpeedup caseTimes)
    if speedups = [] then .error .nothingScored
    else .ok (if 0 < mean speedups then some (mean speedups) else none)

theorem calculateMeanCaseSpeedup_some {caseTimes baseline : CaseTimes}
    {unscored : List String} {score : Rat}
    (h : calculateMeanCaseSpeedup caseTimes baseline unscored = .ok (some score)) :
    0 < score ∧ exists speedups, (baseline.filter fun entry => decide (entry.1 ∉ unscored)).mapM
        (caseSpeedup caseTimes) = .ok speedups ∧ score = mean speedups := by
  unfold calculateMeanCaseSpeedup at h
  split at h
  · cases h
  split at h
  · cases h
  split at h
  · cases h
  cases hspeedups : (baseline.filter fun entry =>
      decide (entry.1 ∉ unscored)).mapM (caseSpeedup caseTimes) with
  | error refusal =>
    rw [hspeedups] at h
    cases h
  | ok speedups =>
    rw [hspeedups] at h
    change (if speedups = [] then _ else _) = _ at h
    split at h
    · cases h
    split at h
    · rename_i hpos
      cases h
      exact ⟨hpos, speedups, rfl, rfl⟩
    · cases h

def keepMeasurementCount : Nat := 3

def measurementScore (m : Measurement) : Except BenchRefusal Rat :=
  match calculateMeanCaseSpeedup m.caseTimes baseline m.unscored with
  | .error refusal => .error refusal
  | .ok none => .error .noMeanCaseSpeedup
  | .ok (some score) => .ok score

def calculateMeasurementCaseSpeedups (bench : Bench) (baseline : CaseTimes) :
    Except BenchRefusal (List Rat) :=
  if bench.measurements.length ≠ keepMeasurementCount then
    .error .measurementCount
  else bench.measurements.mapM (measurementScore baseline)

/-!
## The bar
-/

/-- `keep_t_critical` over `KEEP_T_CRITICAL`. -/
def keepTCritical (sampleSize : Nat) : Rat :=
  if 9 ≤ sampleSize then 1860 / 1000
  else if 6 ≤ sampleSize then 2015 / 1000
  else 2920 / 1000

/-- The functions of `math` and `statistics` the bar is computed with. -/
structure Numerics where
  sqrt : Rat -> Rat
  stdev : List Rat -> Rat

/-- The sigma `_resolve_keep_sigma` settled on. -/
structure SigmaResolution where
  sigma : Option Rat := none
  sampleSize : Nat := keepMeasurementCount

variable (numerics : Numerics) (best : Rat) (scores : List Rat) (resolution : SigmaResolution)

def requiredKeepSpeedup : Rat :=
  let floor := best * (1 / 1000)
  if scores.length < 2 then best + floor
  else
    let spread := resolution.sigma.getD (numerics.stdev scores)
    let standardError := spread / numerics.sqrt scores.length
    best + max (keepTCritical resolution.sampleSize * standardError) floor

def passesKeepThreshold : Bool :=
  decide (scores.length = keepMeasurementCount) &&
    decide (requiredKeepSpeedup numerics best scores resolution ≤ mean scores)

theorem margin_le_required :
    1001 / 1000 * best ≤ requiredKeepSpeedup numerics best scores resolution := by
  unfold requiredKeepSpeedup
  split
  · linarith
  · have hfloor := le_max_right (keepTCritical resolution.sampleSize *
      (resolution.sigma.getD (numerics.stdev scores) /
        numerics.sqrt scores.length)) (best * (1 / 1000))
    linarith

end ForgeLoop
end Hyperloom
