import Hyperloom.Common.PerfMetric

/-!
# The graded comparison

`resolve_graded_comparison` pairs a candidate with the reference it has to beat,
on the interactivity axis or on output throughput, and says whether to keep it.
-/

namespace Hyperloom
namespace State

open Common

/-!
## Anchors
-/

def positiveNumber? (value : Value) : Option PyFloat :=
  match value.numberOrBool? with
  | some x => if x.isPos then some x else none
  | none => none

def firstPositiveTput (source : Record) : PyFloat :=
  ((positiveNumber? (source.read "tput")).or
    (positiveNumber? (source.read "output_throughput"))).getD (.finite 0)

variable (state : GradingState)

def resolveGradingAnchorTput : PyFloat :=
  let best := firstPositiveTput state.currentBest
  if best.isPos then best
  else if state.baselineTput.isPos then state.baselineTput
  else .finite 0

inductive DegradeReason where
  | baselineAxesMissing
  | currentBestAxesMissing
  | baselinePerfMissing
  | candidateAxesMissing
deriving DecidableEq

def resolveGradingAnchorPerf (py : Python) (state : GradingState) :
    Except DegradeReason PerfSnapshot :=
  if state.currentBest.isEmpty then
    match perfSnapshotFromMapping py state.baselinePerf with
    | some snapshot => .ok snapshot
    | none => .error .baselinePerfMissing
  else
    match perfSnapshotFromMapping py state.currentBest with
    | some snapshot => .ok snapshot
    | none => .error .currentBestAxesMissing

structure GradingAnchor where
  perf : Option PerfSnapshot := none
  tput : Option PyFloat := none
deriving DecidableEq

structure GradingRequest where
  againstBaseline : Bool := false
  keepThresholdPct : Rat := 0
  anchor : GradingAnchor := {}
deriving DecidableEq

def referencePerf (py : Python) (state : GradingState)
    (request : GradingRequest) : Except DegradeReason PerfSnapshot :=
  match request.anchor.perf with
  | some snapshot => .ok snapshot
  | none =>
    if request.againstBaseline then
      match perfSnapshotFromMapping py state.baselinePerf with
      | some snapshot => .ok snapshot
      | none => .error .baselineAxesMissing
    else resolveGradingAnchorPerf py state

def referenceTput (request : GradingRequest) : PyFloat :=
  match request.anchor.tput with
  | some tput => tput
  | none =>
    if request.againstBaseline then state.baselineTput
    else resolveGradingAnchorTput state

/-!
## Gates
-/

def gainPct (new : Rat) (base : PyFloat) : Option PyFloat :=
  if new ≤ 0 then none
  else
    match base with
    | .finite b => if b ≤ 0 then none else some (.finite ((new - b) / b * 100))
    | .inf => some .nan
    | .negInf => none
    | .nan => some .nan

def gainPctOrZero (new base : Rat) : Rat :=
  if base ≤ 0 then 0 else (new - base) / base * 100

def agentxKeepP50ThresholdPct : Rat := 3

inductive Gate where
  | p50GainBelowThreshold
  | p90Regressed
  | outputRegressed
  | incomparable (reason : Incomparable)
deriving DecidableEq

/-- `refused`: the interactivity gates a pair fails. -/
def refusedGates (noisePct : PyFloat) (cand ref : PerfSnapshot) : List Gate :=
  (if gainPctOrZero cand.intvtyP50 ref.intvtyP50 ≥ agentxKeepP50ThresholdPct
    then [] else [.p50GainBelowThreshold]) ++ (if withinBand cand.intvty ref.intvty noisePct then []
    else [.p90Regressed]) ++
  (if withinBand (cand.output.getD 0) (ref.output.getD 0) noisePct then []
    else [.outputRegressed]) ++ ((incomparabilityReason cand ref).map Gate.incomparable).toList

def reaches (thresholdPct : Rat) : Option PyFloat -> Bool
  | some gain => PyFloat.le (.finite thresholdPct) gain
  | none => false

/-!
## The comparison
-/

inductive Objective where
  | intvtyP50
  | output
deriving DecidableEq

inductive Verdict where
  | keep
  | revert
deriving DecidableEq

structure GradedComparison where
  objective : Objective
  candidate : Rat
  reference : PyFloat
  verdict : Verdict
  tputCandidate : Rat := 0
  tputReference : Rat := 0
  degradeReason : Option DegradeReason := none
  vetoReason : Option Veto := none
  refusedBy : List Gate := []
deriving DecidableEq

namespace GradedComparison

variable (graded : GradedComparison)

def comparable : Bool := graded.degradeReason.isNone

def gradedOnIntvty : Bool :=
  decide (graded.objective = .intvtyP50)

end GradedComparison

variable (py : Python) (state : GradingState) (measurement : Record) (request : GradingRequest)

/-- The snapshots a pair is graded on: `none` for a session that grades on
output throughput, an error for a pair without the interactivity axes. -/
def gradedPair : Option (Except DegradeReason (PerfSnapshot × PerfSnapshot)) :=
  if state.intvtyGrading then
    match referencePerf py state request, perfSnapshotFromMapping py measurement with
    | .ok ref, some cand => some (.ok (cand, ref))
    | .error reason, _ => some (.error reason)
    | .ok _, none => some (.error .candidateAxesMissing)
  else none

/-- The verdict on a candidate: kept if it passed its gates and nothing vetoes
it. -/
def verdictOf (cleared : Bool) (veto : Option Veto) : Verdict :=
  if cleared && veto.isNone then .keep else .revert

def gradeOnIntvty (cand ref : PerfSnapshot) : GradedComparison :=
  let refused := refusedGates state.noisePct cand ref
  let veto :=
    if refused.isEmpty then constraintVetoReason py measurement state else none
  { objective := .intvtyP50
    candidate := cand.intvtyP50
    reference := .finite ref.intvtyP50
    verdict := verdictOf refused.isEmpty veto
    tputCandidate := cand.total
    tputReference := ref.total
    vetoReason := veto
    refusedBy := refused }

def gradeOnOutput (degradeReason : Option DegradeReason) : GradedComparison :=
  let reference := referenceTput state request
  let candidate := outputTputOf py measurement
  let cleared := degradeReason.isNone &&
    reaches request.keepThresholdPct (gainPct candidate reference)
  let veto := if cleared then constraintVetoReason py measurement state else none
  { objective := .output
    candidate := candidate
    reference := reference
    verdict := verdictOf cleared veto
    degradeReason := degradeReason
    vetoReason := veto }

def resolveGradedComparison : GradedComparison :=
  match gradedPair py state measurement request with
  | some (.ok (cand, ref)) => gradeOnIntvty py state measurement cand ref
  | some (.error reason) =>
    gradeOnOutput py state measurement request (some reason)
  | none => gradeOnOutput py state measurement request none

def clearsGainGates : Bool :=
  match gradedPair py state measurement request with
  | some (.ok (cand, ref)) => (refusedGates state.noisePct cand ref).isEmpty
  | some (.error _) => false
  | none =>
    reaches request.keepThresholdPct
      (gainPct (outputTputOf py measurement) (referenceTput state request))

/-!
## When the veto is read
-/

theorem vetoReason_resolveGradedComparison :
    (resolveGradedComparison py state measurement request).vetoReason =
      if clearsGainGates py state measurement request then
        constraintVetoReason py measurement state
      else none := by
  unfold resolveGradedComparison clearsGainGates
  split
  · rfl
  · rfl
  · rfl

theorem verdictOf_eq_keep {cleared : Bool} {veto : Option Veto}
    (h : verdictOf cleared veto = .keep) : cleared = true := by
  cases cleared with
  | false => cases h
  | true => rfl

theorem clearsGainGates_of_keep {py : Python} {state : GradingState}
    {measurement : Record} {request : GradingRequest}
    (h : (resolveGradedComparison py state measurement request).verdict = .keep) :
    clearsGainGates py state measurement request = true := by
  unfold resolveGradedComparison at h
  unfold clearsGainGates
  split at h
  · exact verdictOf_eq_keep h
  · cases h
  · have hcleared := verdictOf_eq_keep h
    rw [Bool.and_eq_true] at hcleared
    exact hcleared.right

theorem clearsGainGates_of_reaches {py : Python} {state : GradingState}
    {measurement : Record} {request : GradingRequest} {graded : GradedComparison}
    (hgraded : resolveGradedComparison py state measurement request = graded)
    (hcomparable : graded.comparable = true) (houtput : graded.gradedOnIntvty = false)
    (hgain : reaches request.keepThresholdPct (gainPct graded.candidate graded.reference) = true) :
    clearsGainGates py state measurement request = true := by
  unfold resolveGradedComparison at hgraded
  unfold clearsGainGates
  split at hgraded
  · rw [← hgraded] at houtput
    cases houtput
  · rw [← hgraded] at hcomparable
    cases hcomparable
  · rw [← hgraded] at hgain
    exact hgain

theorem reaches_of_above {new : Rat} {base : PyFloat} (hpos : base.isPos = true)
    (habove : PyFloat.le (.finite new) base = false) : reaches 0 (gainPct new base) = true := by
  cases base with
  | finite b =>
    have hb : 0 < b := by simpa [PyFloat.isPos, PyFloat.lt] using hpos
    have hnew := PyFloat.lt_finite_of_le_eq_false habove
    have hgain : 0 ≤ (new - b) / b * 100 := by
      positivity
    rw [gainPct, if_neg (not_le.mpr (hb.trans hnew))]
    simp only [not_le.mpr hb]
    simpa [reaches, PyFloat.le] using hgain
  | inf => simp [PyFloat.le] at habove
  | _ => simp [PyFloat.isPos, PyFloat.lt] at hpos

end State
end Hyperloom
