import Hyperloom.Bus.Retention
import Hyperloom.State.CreationRace

/-!
# Approved proposals

What the Critic's ruling on a proposal is republished as, and what
`materialize_approved_proposal` makes of a proposal it let through: the checks
that may still turn the proposal down, the tasks it may become, and the
messages that report either.
-/

namespace Hyperloom
namespace Loop

open Library Storage Bus State

/-!
## Dictionaries
-/

variable (payload : Evidence)

def field (key : String) : Option Json := (Json.obj payload).get? key

def setField : Evidence -> String -> Json -> Evidence
  | [], key, value => [(key, value)]
  | (other, old) :: rest, key, value =>
    if other = key then (key, value) :: rest
    else (other, old) :: setField rest key value

def setDefault (key : String) (value : Json) : Evidence :=
  if (field payload key).isSome then payload else payload ++ [(key, value)]

def updateFields (payload other : Evidence) : Evidence :=
  other.foldl (fun fields pair => setField fields pair.fst pair.snd) payload

/-- `value or {}`, where reading a key of what is no dictionary raises. -/
def orEmpty : Option Json -> Option Evidence
  | none => some []
  | some (.obj fields) => some fields
  | some value => if truthy value then none else some []

theorem field_setField (key other : String) (value : Json) :
    field (setField payload key value) other =
      if other = key then some value else field payload other := by
  unfold field Json.get?
  induction payload with
  | nil =>
    by_cases hkey : key = other
    · simp [setField, hkey]
    · simp [setField, hkey, Ne.symm hkey]
  | cons pair rest ih =>
    rw [setField]
    by_cases hkey : other = key
    · by_cases hpair : pair.fst = key
      · simp [hkey, hpair]
      · simp [hkey, hpair] at ih ⊢
        exact ih
    · rw [if_neg hkey] at ih ⊢
      by_cases hpair : pair.fst = key
      · simp [hpair, Ne.symm hkey]
      · rw [if_neg hpair]
        by_cases hother : pair.fst = other
        · simp [hother]
        · simp [hother] at ih ⊢
          exact ih

theorem field_updateFields {payload other : Evidence} {key : String}
    (h : forall pair, pair ∈ other -> pair.fst ≠ key) :
    field (updateFields payload other) key = field payload key := by
  unfold updateFields
  induction other generalizing payload with
  | nil => rfl
  | cons pair rest ih =>
    rw [List.foldl_cons, ih (fun later hlater => h later (List.mem_cons_of_mem pair hlater)),
      field_setField, if_neg (Ne.symm (h pair List.mem_cons_self))]

/-!
## Rulings
-/

def verdictAdvisoryListKeys : List String :=
  ["required_evidence", "risks", "notes", "kb_evidence", "packet_evidence"]

def verdictAdvisoryTextKeys : List String :=
  ["advice_text", "alternative_action"]

def isBlank : Json -> Bool
  | .null => true
  | .str s => decide (s = "")
  | _ => false

/-- The items `serialize_verdict_advisory` lists under a key. -/
def advisoryItems : Option Json -> List Json
  | none => []
  | some (.arr items) => items.filter (fun item => !isBlank item)
  | some value => if isBlank value then [] else [value]

def serializeVerdictAdvisory : Evidence :=
  verdictAdvisoryListKeys.filterMap (fun key =>
    match advisoryItems (field payload key) with
    | [] => none
    | items => some (key, .arr items)) ++ verdictAdvisoryTextKeys.filterMap (fun key =>
    match field payload key with
    | some (.str text) =>
      if strip text = "" then none else some (key, .str text)
    | _ => none)

structure CriticRuling where
  verdict : String
  reasoning : String
  approvedVariantNames : Option (List String) := none
  payload : Evidence := []

/-- `verdict in ("approve", "advise")`. -/
def CriticRuling.letsThrough (ruling : CriticRuling) : Bool :=
  decide (ruling.verdict = "approve") || decide (ruling.verdict = "advise")

variable (proposalMsgId : String) (ruling : CriticRuling)

def rebroadcastPayload : Evidence :=
  updateFields [("target_proposal_msg_id", .str proposalMsgId),
      ("verdict", .str ruling.verdict), ("reasoning", .str ruling.reasoning)]
    (serializeVerdictAdvisory ruling.payload)

theorem mem_serializeVerdictAdvisory {payload : Evidence}
    {pair : String × Json} (h : pair ∈ serializeVerdictAdvisory payload) :
    pair.fst ∈ verdictAdvisoryListKeys ++ verdictAdvisoryTextKeys := by
  unfold serializeVerdictAdvisory at h
  rw [List.mem_append] at h ⊢
  rcases h with h | h
  · left
    rcases List.mem_filterMap.mp h with ⟨key, hkey, hpair⟩
    split at hpair
    · cases hpair
    · cases hpair
      exact hkey
  · right
    rcases List.mem_filterMap.mp h with ⟨key, hkey, hpair⟩
    split at hpair
    · rcases some_of_guard hpair with ⟨_, rfl⟩
      exact hkey
    · cases hpair

theorem verdict_rebroadcastPayload :
    field (rebroadcastPayload proposalMsgId ruling) "verdict" = some (.str ruling.verdict) := by
  unfold rebroadcastPayload
  rw [field_updateFields]
  · rfl
  · intro pair hpair heq
    have hmem := mem_serializeVerdictAdvisory hpair
    rw [heq] at hmem
    exact absurd hmem (by decide)

/-!
## The session a proposal is materialized in

The rules that judge or complete the parameters of a proposal read the shared
state; the routing only uses their answers.
-/

/-- `PolicyDenied`, as far as a skip reports it. -/
structure PolicyDenied where
  rule : String
  detail : String
deriving DecidableEq

structure RoutingSession (γ : Type) where
  py : Conversions γ
  /-- `dict(items)` of a list, `none` where it raises. -/
  dictOfItems : List Json -> Option Evidence
  /-- The gain a task carries; zero is carried as none. -/
  gain : γ -> Option Json
  exploreGridDenial : Evidence -> Option PolicyDenied
  seedExploreParams : Evidence -> Evidence
  seedIntegratePatchParams : Evidence -> Evidence
  backfillDomain : Evidence -> Evidence
  specialistInFlightDenial : Evidence -> Tasks -> Option PolicyDenied
  paramsDigest : String -> Evidence -> String
  registryLanesTtl : String -> List String × Int
  isValidMeasurement : TaskRow -> Bool
  dispatchOrigin : Option DispatchOrigin
  upstreamParams : Evidence -> Evidence
  authoringParams : Evidence -> Option Json -> Evidence
  authoringLanesTtl : Evidence -> List String × Int

section

variable {γ : Type}

/-- `is_upstream_pr_prescreen`; `none` where it raises. -/
def isUpstreamPrPrescreen (actionName : String) (payload : Evidence) : Option Bool :=
  if actionName ≠ "integrate_patch" then some false
  else if (field payload "patches").any truthy then some false
  else
    (orEmpty (field payload "params")).map (fun params =>
      !(field params "patches").any truthy &&
        (field payload "framework_agent_candidate_id").any truthy)

/-- `ORIGIN` of the GEAK source reviews. -/
def geakOrigin : String := "geak_native_revalidation"

/-- Whether `record_review` takes a verdict, so that no task follows. -/
def isGeakReview (params : Evidence) : Bool :=
  (field params "origin").any (decides geakOrigin)

/-!
## Skips
-/

/-- Why an approved proposal becomes no task of its own, and the fields that
say so. -/
structure Skip where
  reason : String
  fields : Evidence := []

def skippedPayload (pending : PendingProposal γ) (skip : Skip) : Evidence :=
  updateFields (updateFields
      [("kind", .str "proposal_materialize_skipped"), ("reason", .str skip.reason),
        ("proposal_msg_id", .str pending.proposalMsgId)] skip.fields)
    [("action_name", .str pending.actionName), ("from_agent", .str pending.fromAgent)]

variable (py : Conversions γ)

def variantName (variant : Evidence) : String :=
  match field variant "name" with
  | none => ""
  | some name => if truthy name then strip (py.str name) else ""

def keepsVariant (approved : Option (List String)) : Json -> Bool
  | .obj variant =>
    match approved with
    | none => true
    | some names => decide (variantName py variant ∈ names)
  | _ => approved.isNone

/-- The grid check of `_seed_materialized_params`: the parameters with the
approved variants, `none` when none is left. -/
def filterGrid (approved : Option (List String)) (params : Evidence) : Option Evidence :=
  match field params "grid" with
  | some (.arr grid) =>
    let stamped := grid.filter (keepsVariant py approved)
    if approved.isSome ∧ stamped.isEmpty then none
    else some (setField params "grid" (.arr stamped))
  | _ => some params

def PolicyDenied.toSkip (denied : PolicyDenied) : Skip where
  reason := denied.rule
  fields := [("detail", .str denied.detail)]

variable (session : RoutingSession γ) (pending : PendingProposal γ)

def seedMaterializedParams (approved : Option (List String))
    (tasks : Tasks) (params : Evidence) : Except Skip Evidence :=
  if pending.actionName = "explore" then
    match filterGrid session.py approved params with
    | none => .error { reason := "critic_filter_empty_grid" }
    | some params =>
      match session.exploreGridDenial params with
      | some denied => .error denied.toSkip
      | none => .ok (session.seedExploreParams params)
  else if pending.actionName = "integrate_patch" then
    .ok (session.seedIntegratePatchParams params)
  else if pending.actionName = "specialist" then
    let params := session.backfillDomain params
    match session.specialistInFlightDenial params tasks with
    | some denied => .error denied.toSkip
    | none => .ok params
  else .ok params

/-!
## The tasks of a proposal
-/

def proposedParams (params : Evidence) : Evidence :=
  match session.gain pending.predictedGainPct with
  | none => params
  | some gain => setDefault params "predicted_gain_pct" gain

variable (actionName : String)

def approvedIdempotencyKey (params : Evidence) : String :=
  "approved:" ++ actionName ++ ":" ++ session.paramsDigest actionName params

def approvedSpec (params : Evidence) : TaskSpec where
  kind := pending.actionName
  params :=
    if pending.actionName = "explore" ∧ pending.proposalMsgId ≠ "" then
      setField params "proposal_msg_id" (.str pending.proposalMsgId)
    else params
  idempotencyKey := approvedIdempotencyKey session pending.actionName params
  requiresLanes := some (session.registryLanesTtl pending.actionName).fst
  leaseTtlSec := (session.registryLanesTtl pending.actionName).snd
  dispatchClass := some "llm"

def retryKeyAttempts : Nat := 6

def retryKey (key : String) (attempt : Nat) : String :=
  if attempt = 0 then key else key ++ "-retry" ++ toString attempt

def twinAnswers (twin : TaskRow) : Bool :=
  !twin.state.isTerminal || (decide (actionName = "baseline") && session.isValidMeasurement twin)

def answeredSkip (twin : TaskRow) : Skip where
  reason :=
    if twin.state.isTerminal then "baseline_already_succeeded"
    else "duplicate_proposal_content"
  fields :=
    [("task_id", .str twin.taskId), ("task_state", .str twin.state.name)]

variable (candidate : Evidence)

def candidateKey : String :=
  match ([field candidate "candidate_id", field candidate "pr_url",
      field candidate "ref"].filterMap id).find? truthy with
  | none => ""
  | some value => py.str value

def upstreamKey : String :=
  "framework:" ++ py.str ((field candidate "batch_id").getD (.str "")) ++ ":" ++
    candidateKey py candidate

def upstreamSpec : Option TaskSpec :=
  let lanes := session.registryLanesTtl "integrate_patch"
  if lanes.fst.isEmpty then none
  else some
    { kind := "integrate_patch"
      params := session.upstreamParams candidate
      idempotencyKey := upstreamKey session.py candidate
      requiresLanes := some lanes.fst
      leaseTtlSec := lanes.snd
      dispatchClass := some "coordinator" }

def authoringKey : String :=
  let batchId :=
    match field candidate "batch_id" with
    | none => ""
    | some value => if truthy value then py.str value else ""
  "framework_agent_authoring:" ++ batchId ++ ":" ++ candidateKey py candidate

def authoringSpec (audit : Option Json) : TaskSpec where
  kind := "specialist"
  params := session.authoringParams candidate audit
  idempotencyKey := authoringKey session.py candidate
  requiresLanes := some (session.authoringLanesTtl (session.authoringParams candidate audit)).fst
  leaseTtlSec := (session.authoringLanesTtl (session.authoringParams candidate audit)).snd
  dispatchClass := some "coordinator"

/-- `dict(payload.get("candidate") or {})`. -/
def candidateOf (payload : Evidence) : Option Evidence :=
  match field payload "candidate" with
  | some (.arr items) => session.dictOfItems items
  | value => orEmpty value

/-- `want_raw` and `want_author`, by the audit step. -/
def candidateTracks (payload : Evidence) : Bool × Bool :=
  let auditStep :=
    match field payload "audit_step" with
    | none => ""
    | some value => if truthy value then py.str value else ""
  if auditStep = "direct_framework" then (true, false)
  else if auditStep = "author_via_specialist" then (false, true)
  else (true, true)

end

end Loop
end Hyperloom
