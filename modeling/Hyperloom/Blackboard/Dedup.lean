import Hyperloom.Library.Whitespace
import Hyperloom.Blackboard.Records

/-!
# Whether a change was tested

What the blackboard answers a branch that asks for a claim: tested, claimed on
this state, tested elsewhere at this moment, suspected or free; and what an
attached request is refused for.  The live claims a call reads from the claims
folder, and what the lease says, are arguments.
-/

namespace Hyperloom
namespace Blackboard

structure Digests where
  noAction : String
  intent : String -> String -> IntentLayer -> String

def replayTarget : String := "warm start"

structure DedupAnswer where
  key : ClaimKey
  actionFingerprint : String
  status : DedupStatus
  claim : Option Claim := none
  records : List TestRecord := []
  elsewhere : List TestRecord := []
deriving DecidableEq

section

variable {δ : Type} (digests : Digests) (state : BlackboardState δ)

/-!
## The tests an answer reads
-/

/-- `_same_action`: the empty delta names no action. -/
def sameAction (one other : String) : Bool :=
  decide (one = other) && decide (one ≠ digests.noAction)

variable (key : ClaimKey) (actionFingerprint : String)

/-- `_claims_here`: the key's own claims first. -/
def claimsHere (live : List Claim) : List Claim :=
  let here := live.filter fun claim =>
    decide (claim.key.parentCommit = key.parentCommit) &&
    (decide (claim.key = key) || sameAction digests claim.actionFingerprint actionFingerprint)
  here.filter (fun claim => claim.key = key) ++ here.filter (fun claim => claim.key ≠ key)

def replays : Bool :=
  match state.intent key.intentFingerprint with
  | none => false
  | some known =>
    known.fingerprint = digests.intent replayTarget known.mechanism known.layer

def testedElsewhere (branch : String) (live : List Claim) : Option Claim × List TestRecord :=
  if replays digests state key then (none, [])
  else
    (live.find? fun claim =>
        decide (claim.holder ≠ branch) &&
        decide (claim.key.intentFingerprint = key.intentFingerprint) &&
        decide (claim.key.parentCommit ≠ key.parentCommit), state.records.filter fun record =>
        record.inFlight && decide (record.request.branch ≠ branch) &&
        decide (record.request.intentFingerprint = some key.intentFingerprint) &&
        decide (record.request.parentCommit ≠ key.parentCommit))

/-- `_same_change_tests`: other branches' explores of a change on a commit, in
the order they were requested. -/
def sameChangeTests (parentCommit actionFingerprint branch : String) : List TestRecord :=
  state.records.filter fun record =>
    decide (record.request.parentCommit = parentCommit) &&
    decide (record.request.branch ≠ branch) && decide (record.request.purpose = .explore) &&
    sameAction digests record.request.actionFingerprint actionFingerprint

/-- `_Measured`: of the action on the commit, of the intent on the commit, and
of the intent on other commits. -/
structure Measured where
  exact : List TestRecord
  sameIntent : List TestRecord
  elsewhere : List TestRecord

def measuredFor : Measured :=
  let measured := state.records.filter fun record =>
    record.measured && record.request.intentFingerprint.isSome
  let here := measured.filter fun record => record.request.parentCommit = key.parentCommit
  { exact := here.filter fun record =>
      sameAction digests record.request.actionFingerprint actionFingerprint
    sameIntent := here.filter fun record =>
      record.request.intentFingerprint = some key.intentFingerprint
    elsewhere := measured.filter fun record =>
      decide (record.request.intentFingerprint = some key.intentFingerprint) &&
      decide (record.request.parentCommit ≠ key.parentCommit) }

/-!
## The answer
-/

/-- `_answer`, on the claims that are live now. -/
def answer (actionFingerprint branch : String) (live : List Claim) : DedupAnswer :=
  let found := measuredFor digests state key actionFingerprint
  let base : DedupAnswer := {
    key := key
    actionFingerprint := actionFingerprint
    status := .free
    elsewhere := found.elsewhere }
  if found.exact ≠ [] then
    { base with status := .tested, records := found.exact }
  else
    match claimsHere digests key actionFingerprint live with
    | claim :: _ => { base with status := .inProgress, claim := some claim }
    | [] =>
      let (held, running) := testedElsewhere digests state key branch live
      let sameChange := sameChangeTests digests state key.parentCommit actionFingerprint branch
      let testing := running ++ sameChange.filter TestRecord.inFlight
      if held.isSome || testing ≠ [] then
        { base with status := .testingElsewhere, claim := held, records := testing }
      else if found.sameIntent ≠ [] then
        { base with status := .suspected, records := found.sameIntent }
      else base

inductive Refusal where
  | claimHeld (answer : DedupAnswer)
  | alreadyTested (answer : DedupAnswer)
  | ceilingTooLow (ceilingPct barPct : Rat)
deriving DecidableEq

def refusal (answer : DedupAnswer) (reason : String) : Option Refusal :=
  match answer.status with
  | .inProgress => some (.claimHeld answer)
  | .testingElsewhere => some (.claimHeld answer)
  | .tested => some (.alreadyTested answer)
  | .suspected =>
    if Library.strip reason = "" then some (.alreadyTested answer)
    else none
  | .free => none

/-- `_ceiling_pct`: `some none` is infinite. -/
def ceilingPct (intent : Intent) : Option (Option Rat) :=
  intent.targetSharePct.map fun share =>
    if 100 ≤ share then none else some (100 * share / (100 - share))

def ceilingRefusal (intent : Intent) (barPct : Option Rat) : Option Refusal :=
  match ceilingPct intent, barPct with
  | some (some ceiling), some bar =>
    if bar ≤ ceiling then none else some (.ceilingTooLow ceiling bar)
  | _, _ => none

def holdersOf (answer : DedupAnswer) : List String :=
  if answer.status ≠ .testingElsewhere then []
  else
    ((answer.claim.map Claim.holder).toList ++ answer.records.map
      fun record => record.request.branch).dedup.insertionSort (· ≤ ·)

/-- What the lease says when nothing speaks against the claim: got, or taken
by the claim in force. -/
inductive LeaseOutcome where
  | got (claim : Claim)
  | taken (claim : Claim)
deriving DecidableEq

def acquireDecision (live : List Claim) (intent : Intent)
    (actionFingerprint reason : String) (lease : LeaseOutcome) : ClaimDecision :=
  let key : ClaimKey := ⟨intent.parentCommit, intent.fingerprint⟩
  let first := answer digests state key actionFingerprint intent.branch live
  let bar := state.barPct
  let refused := (refusal first reason).or (ceilingRefusal intent bar)
  let (final, acquired) :=
    match refused, lease with
    | none, .got _ => (first, true)
    | none, .taken claim =>
      ({ first with status := .inProgress, claim := some claim }, false)
    | some _, _ => (first, false)
  { intent := intent
    actionFingerprint := actionFingerprint
    found := final.status
    acquired := acquired
    reason := reason
    matched := final.records.map TestRecord.requestId
    ceilingPct := ceilingPct intent
    barPct := bar
    holders := holdersOf final }

/-- The summary of the row; `tooLow` is the ceiling and the bar as text when
the ceiling is what refused the claim. -/
def decisionSummary (decision : ClaimDecision) (tooLow : Option String) : String :=
  let found :=
    match tooLow with
    | some text => text
    | none =>
      if decision.holders ≠ [] then
        "being tested by " ++ ", ".intercalate decision.holders
      else decision.found.value
  let outcome :=
    if decision.acquired then "claimed" else "refused (" ++ found ++ ")"
  outcome ++ " " ++ decision.intent.target ++ " / " ++
    decision.intent.mechanism ++ " on " ++ decision.intent.parentCommit

/-!
## An attached request
-/

variable (request : TestRequest)

/-- `_tested_first`: other branches' explores of the request's change,
requested before it and in flight or measured. -/
def testedFirst : List TestRecord :=
  if request.purpose ≠ .explore then []
  else
    let position (requestId : String) := state.requestIds.idxOf requestId
    (sameChangeTests digests state request.parentCommit
      request.actionFingerprint request.branch).filter fun record =>
        decide (position record.requestId < position request.requestId) &&
        (record.inFlight || record.measured)

def changeTestedFirst : Option String :=
  let first := testedFirst digests state request
  if first = [] then none
  else
    let measured := first.filter TestRecord.measured
    let shown := if measured = [] then first else measured
    let testers := ", ".intercalate
      ((shown.map fun record => record.request.branch).dedup.insertionSort (· ≤ ·))
    let tests := ", ".intercalate (shown.map TestRecord.requestId)
    if measured = [] then
      some (testers ++ " is testing the same change on " ++
        request.parentCommit ++ " as " ++ tests ++
        "; its outcome comes to your inbox when that test ends")
    else
      some (testers ++ " already measured the same change on " ++
        request.parentCommit ++ " as " ++ tests ++
        "; blackboard_lookup with this change says how it went")

/-- The decision `_log_change_refusal` records on the branch's own claim. -/
def changeRefusal (claim : Claim) : ClaimDecision :=
  let first := testedFirst digests state request
  let measured := first.filter TestRecord.measured
  let shown := if measured = [] then first else measured
  let running := if measured = [] then first else []
  { intent := claim.intent
    actionFingerprint := request.actionFingerprint
    found := if running = [] then .tested else .testingElsewhere
    acquired := false
    matched := shown.map TestRecord.requestId
    ceilingPct := ceilingPct claim.intent
    barPct := state.barPct
    holders := (running.map fun record => record.request.branch).dedup.insertionSort (· ≤ ·) }

def changeRefusalSummary (claim : Claim) : String :=
  let first := testedFirst digests state request
  let measured := first.filter TestRecord.measured
  let shown := if measured = [] then first else measured
  let testers := ", ".intercalate
    ((shown.map fun record => record.request.branch).dedup.insertionSort (· ≤ ·))
  let doing := if measured = [] then "being tested" else "measured"
  "refused (the same change " ++ doing ++ " by " ++ testers ++ ") " ++
    claim.intent.target ++ " / " ++ claim.intent.mechanism

end

/-!
## What a refusal says
-/

section

variable {δ : Type} {digests : Digests} {state : BlackboardState δ} {record : TestRecord}
  {branch : String} {live : List Claim}

theorem mem_testedElsewhere {key : ClaimKey}
    (h : record ∈ (testedElsewhere digests state key branch live).2) :
    record ∈ state.records ∧ record.inFlight = true ∧ record.request.branch ≠ branch := by
  unfold testedElsewhere at h
  split at h
  · cases h
  simp only [List.mem_filter, Bool.and_eq_true, decide_eq_true_eq] at h
  exact ⟨h.left, h.right.left.left.left, h.right.left.left.right⟩

variable {action : String}

theorem mem_sameChangeTests {parentCommit : String} :
    record ∈ sameChangeTests digests state parentCommit action branch <->
      record ∈ state.records ∧ record.request.parentCommit = parentCommit ∧
        record.request.branch ≠ branch ∧ record.request.purpose = .explore ∧
        record.request.actionFingerprint = action ∧
        record.request.actionFingerprint ≠ digests.noAction := by
  simp only [sameChangeTests, sameAction, List.mem_filter, Bool.and_eq_true,
    decide_eq_true_eq, and_assoc]

theorem mem_testedFirst {request : TestRequest} :
    record ∈ testedFirst digests state request <-> request.purpose = .explore ∧
        record ∈ sameChangeTests digests state request.parentCommit
          request.actionFingerprint request.branch ∧
        state.requestIds.idxOf record.requestId < state.requestIds.idxOf request.requestId ∧
        (record.inFlight = true ∨ record.measured = true) := by
  unfold testedFirst
  split
  · rename_i hother
    exact iff_of_false List.not_mem_nil (fun h => hother h.left)
  · rename_i hexplore
    simp only [List.mem_filter, Bool.and_eq_true, Bool.or_eq_true,
      decide_eq_true_eq, not_not.mp hexplore, true_and]

theorem changeTestedFirst_eq_none {request : TestRequest} :
    changeTestedFirst digests state request = none <-> testedFirst digests state request = [] := by
  unfold changeTestedFirst
  dsimp only
  split
  · rename_i hnone
    exact iff_of_true rfl hnone
  · rename_i hsome
    split
    · exact iff_of_false (by intro h; cases h) hsome
    · exact iff_of_false (by intro h; cases h) hsome

theorem answer_testingElsewhere {key : ClaimKey}
    (hstatus : (answer digests state key action branch live).status = .testingElsewhere)
    (hrecord : record ∈ (answer digests state key action branch live).records) :
    record ∈ state.records ∧ record.inFlight = true ∧ record.request.branch ≠ branch := by
  revert hstatus hrecord
  fun_cases answer digests state key action branch live with (intro hstatus hrecord; cases hstatus)
  | case3 _ _ _ _ _ running htested =>
    rcases List.mem_append.mp hrecord with hrunning | hsame
    · apply mem_testedElsewhere
      rw [htested]
      exact hrunning
    · have hparts := List.mem_filter.mp hsame
      have htest := mem_sameChangeTests.mp hparts.left
      exact ⟨htest.left, hparts.right, htest.right.right.left⟩

/-- A recorded refusal for a test elsewhere names other branches' tests that
were in flight in the state it was decided on. -/
theorem acquireDecision_matched {intent : Intent} {reason : String}
    {lease : LeaseOutcome} {requestId : String}
    (hfound : (acquireDecision digests state live intent action reason
      lease).found = .testingElsewhere)
    (hmatched : requestId ∈ (acquireDecision digests state live intent action
      reason lease).matched) :
    exists record, record ∈ state.records ∧ record.requestId = requestId ∧
      record.inFlight = true ∧ record.request.branch ≠ intent.branch := by
  unfold acquireDecision at hfound hmatched
  dsimp only at hfound hmatched
  have hfirst : (answer digests state ⟨intent.parentCommit, intent.fingerprint⟩ action intent.branch
      live).status = .testingElsewhere -> requestId ∈ (answer digests state
      ⟨intent.parentCommit, intent.fingerprint⟩ action intent.branch
      live).records.map TestRecord.requestId ->
      exists record, record ∈ state.records ∧ record.requestId = requestId ∧
        record.inFlight = true ∧ record.request.branch ≠ intent.branch := by
    intro hstatus hin
    rcases List.mem_map.mp hin with ⟨record, hrecord, hid⟩
    have htest := answer_testingElsewhere hstatus hrecord
    exact ⟨record, htest.left, hid, htest.right⟩
  split at hfound
  · rename_i hnone
    rw [hnone] at hmatched
    exact hfirst hfound hmatched
  · cases hfound
  · rename_i hsome
    rw [hsome] at hmatched
    exact hfirst hfound hmatched

end

end Blackboard
end Hyperloom
