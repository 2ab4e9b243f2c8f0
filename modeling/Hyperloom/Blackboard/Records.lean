import Hyperloom.Blackboard.Segments

/-!
# Test records

The blackboard's entries folded into what its queries look up: which tests
were requested, measured, judged and withdrawn.  A detail this build cannot
decode is skipped; how one is decoded is a parameter.
-/

namespace Hyperloom
namespace Blackboard

inductive TestKind where
  | test
  | profile
  | accuracy
  | repro
  | sweep
deriving DecidableEq

def TestKind.value : TestKind -> String
  | .test => "test"
  | .profile => "profile"
  | .accuracy => "accuracy"
  | .repro => "repro"
  | .sweep => "sweep"

inductive Purpose where
  | baseline
  | health
  | explore
  | confirm
  | integration
  | profile
  | accuracy
  | repro
  | final
deriving DecidableEq

inductive Validity where
  | succeeded
  | candidateFailed
  | measurementFailed
deriving DecidableEq

def Validity.value : Validity -> String
  | .succeeded => "succeeded"
  | .candidateFailed => "candidate_failed"
  | .measurementFailed => "measurement_failed"

inductive FailureClass where
  | infra
  | unclear
  | candidate
deriving DecidableEq

def FailureClass.value : FailureClass -> String
  | .infra => "infra"
  | .unclear => "unclear"
  | .candidate => "candidate"

inductive Conclusion where
  | committed
  | committedWithRepro
  | splitRequested
  | splitPending
  | splitCommitted
  | diagnosisPending
  | repairRequested
  | recordedOnly
  | accuracyFailed
  | unverified
  | merged
  | notStackable
deriving DecidableEq

/-- An accepted request; `actionFingerprint` is the digest of its delta and
`document` stands for the fields nothing here reads. -/
structure TestRequest where
  requestId : String
  kind : TestKind
  purpose : Purpose
  branch : String
  parentCommit : String
  actionFingerprint : String
  intentFingerprint : Option String := none
  priority : Option Nat := none
  document : String := ""
deriving DecidableEq

/-- A final result; `document` stands for what it measured. -/
structure TestResult where
  requestId : String
  validity : Validity
  failure : Option FailureClass := none
  failureReason : Option String := none
  document : String := ""
deriving DecidableEq

structure Withdrawal where
  requestId : String
  reason : String
deriving DecidableEq

structure JudgementWrite where
  requestId : String
  conclusion : Conclusion
  commitId : Option String := none
deriving DecidableEq

inductive DedupStatus where
  | free
  | inProgress
  | tested
  | suspected
  | testingElsewhere
deriving DecidableEq

def DedupStatus.value : DedupStatus -> String
  | .free => "free"
  | .inProgress => "in_progress"
  | .tested => "tested"
  | .suspected => "suspected"
  | .testingElsewhere => "testing_elsewhere"

/-- What one claim attempt found and whether it got the claim.  A ceiling
without a bound is `some none`. -/
structure ClaimDecision where
  intent : Intent
  actionFingerprint : String
  found : DedupStatus
  acquired : Bool
  reason : String := ""
  matched : List String := []
  ceilingPct : Option (Option Rat) := none
  barPct : Option Rat := none
  holders : List String := []
deriving DecidableEq

/-- What a row stores, as far as the queries below read it. -/
inductive Payload where
  | request (request : TestRequest)
  | result (result : TestResult)
  | withdrawal (withdrawal : Withdrawal)
  | judgement (write : JudgementWrite)
  | claim (decision : ClaimDecision)
  | lineage (fromBranch : String)
  | toolResult (jobId : String)
  | build (requestId : String)
  | baseline (barPct : Option Rat)
  | other
deriving DecidableEq

def Payload.ofTests : Payload -> Bool
  | .lineage _ => false
  | .toolResult _ => false
  | .build _ => false
  | .baseline _ => false
  | .other => false
  | _ => true

/-!
## The folded state
-/

structure BlackboardState (δ : Type) where
  entries : List (Entry δ)
  decoded : List (Entry δ × Payload)

section

variable {δ : Type}

def foldEntries (decode : Entry δ -> Option Payload)
    (entries : List (Entry δ)) : BlackboardState δ where
  entries := entries
  decoded := entries.filterMap fun entry => (decode entry).map fun payload => (entry, payload)

/-- The keys of a dict filled in this order. -/
def firstSeen (keys : List String) : List String :=
  keys.foldl (fun seen key => if key ∈ seen then seen else seen ++ [key]) []

theorem firstSeen_append (keys : List String) (key : String) :
    firstSeen (keys ++ [key]) = if key ∈ firstSeen keys then firstSeen keys
      else firstSeen keys ++ [key] := by
  unfold firstSeen
  rw [List.foldl_append]
  rfl

theorem mem_firstSeen {keys : List String} {key : String} :
    key ∈ firstSeen keys <-> key ∈ keys := by
  induction keys using List.reverseRecOn with
  | nil => rfl
  | append_singleton keys last ih =>
    rw [firstSeen_append, List.mem_append, List.mem_singleton, ← ih]
    split
    · rename_i hseen
      constructor
      · exact Or.inl
      · intro h
        rcases h with hin | heq
        · exact hin
        · exact heq.symm ▸ hseen
    · rw [List.mem_append, List.mem_singleton]

theorem firstSeen_of_nodup {keys : List String} (h : keys.Nodup) : firstSeen keys = keys := by
  induction keys using List.reverseRecOn with
  | nil => rfl
  | append_singleton keys last ih =>
    have hparts := List.nodup_append.mp h
    have hlast : last ∉ firstSeen keys := by
      intro hin
      exact hparts.right.right last (mem_firstSeen.mp hin) last List.mem_cons_self rfl
    rw [firstSeen_append, if_neg hlast, ih hparts.left]

namespace BlackboardState

variable (state : BlackboardState δ)

def payloads : List Payload := state.decoded.map Prod.snd

def requestRows : List TestRequest :=
  state.payloads.filterMap fun payload =>
    match payload with
    | .request request => some request
    | _ => none

def requestIds : List String :=
  firstSeen (state.requestRows.map TestRequest.requestId)

variable (requestId : String)

def request : Option TestRequest :=
  state.requestRows.reverse.find? fun request => request.requestId = requestId

def result : Option TestResult :=
  state.payloads.reverse.findSome? fun payload =>
    match payload with
    | .result result =>
      if result.requestId = requestId then some result else none
    | _ => none

def withdrawal : Option Withdrawal :=
  state.payloads.reverse.findSome? fun payload =>
    match payload with
    | .withdrawal withdrawal =>
      if withdrawal.requestId = requestId then some withdrawal else none
    | _ => none

def latestJudgement : Option JudgementWrite :=
  state.payloads.reverse.findSome? fun payload =>
    match payload with
    | .judgement write =>
      if write.requestId = requestId then some write else none
    | _ => none

/-- `_bar_pct`: that of the last baseline. -/
def barPct : Option Rat :=
  (state.payloads.reverse.findSome? fun payload =>
    match payload with
    | .baseline barPct => some barPct
    | _ => none).join

def intent (fingerprint : String) : Option Intent :=
  state.payloads.findSome? fun payload =>
    match payload with
    | .claim decision =>
      if decision.intent.fingerprint = fingerprint then some decision.intent
      else none
    | _ => none

end BlackboardState

end

/-!
## Records
-/

structure TestRecord where
  request : TestRequest
  result : Option TestResult
  conclusion : Option Conclusion
  withdrawal : Option Withdrawal
deriving DecidableEq

namespace TestRecord

variable (record : TestRecord)

def requestId : String := record.request.requestId

/-- Requested, and neither measured nor withdrawn yet. -/
def inFlight : Bool := record.result.isNone && record.withdrawal.isNone

def measured : Bool :=
  match record.result with
  | none => false
  | some result =>
    decide (result.validity ≠ .measurementFailed) && decide (record.conclusion ≠ some .unverified)

end TestRecord

namespace BlackboardState

variable {δ : Type} (state : BlackboardState δ)

def record (requestId : String) : Option TestRecord :=
  (state.request requestId).map fun request =>
    { request := request
      result := state.result requestId
      conclusion := (state.latestJudgement requestId).map JudgementWrite.conclusion
      withdrawal := state.withdrawal requestId }

def records : List TestRecord := state.requestIds.filterMap state.record

end BlackboardState

end Blackboard
end Hyperloom
