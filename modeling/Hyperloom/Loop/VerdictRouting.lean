import Hyperloom.State.TaskHistory
import Hyperloom.Loop.Proposals

/-!
# Routing a verdict

`_handle_single_verdict` republishes the Critic's ruling and then turns an
approved proposal into a task.  Each write commits by itself and the other
coroutines of the process write in between, so a crash may leave any of the
states below behind.  What a restarted process knows is the event log, from
which `replay_for_resume` rebuilds the pending proposals, and the task table.
-/

namespace Hyperloom
namespace Loop

open Library Storage Bus State

/-!
## The stages of a routing
-/

inductive RoutingEnd where
  | declined
  | geakReview
  | skipped
  | materialized
  | candidateFailed
deriving DecidableEq

/-- What a routing does next.  The tracks of an upstream candidate carry
whether the authoring track follows, or whether the first one has a task. -/
inductive RoutingStage where
  | received
  | popped
  | decided
  | reading (spec : TaskSpec) (attempt : Nat)
  | inserting (spec : TaskSpec) (attempt : Nat)
  | skipping (skip : Skip)
  | answered (skip : Skip)
  | created (task : TaskRow)
  | upstreamReading (candidate : Evidence) (wantAuthor : Bool)
  | upstreamInserting (candidate : Evidence) (wantAuthor : Bool)
  | authorReading (candidate : Evidence) (hasTask : Bool)
  | authorInserting (candidate : Evidence) (hasTask : Bool)
  | ended (how : RoutingEnd)

/-- Whether a routing is between the commit of the rebroadcast and the write
or the read that settles what becomes of an approved proposal. -/
def RoutingStage.unsettled : RoutingStage -> Bool
  | .received => false
  | .popped => false
  | .decided => true
  | .reading _ _ => true
  | .inserting _ _ => true
  | .skipping _ => true
  | .answered _ => false
  | .created _ => false
  | .upstreamReading _ _ => true
  | .upstreamInserting _ _ => true
  | .authorReading _ hasTask => !hasTask
  | .authorInserting _ hasTask => !hasTask
  | .ended _ => false

/-- The log, the tasks and the pending proposals, the stage of the routing,
and the id of the verdict it republished. -/
structure RoutingState (γ : Type) where
  events : EventLog
  tasks : Tasks
  pending : List (PendingProposal γ)
  stage : RoutingStage
  rebroadcast : Option String := none

structure Stamp where
  msgId : String
  taskId : String
  now : Iso

/-- A step of the routing, or a write of another coroutine. -/
inductive RoutingOp where
  | route (stamp : Stamp)
  | append (message : Message)
  | registry (op : RegistryOp)

structure Routing (γ : Type) where
  session : RoutingSession γ
  source : String
  pending : PendingProposal γ
  ruling : CriticRuling

section

variable {γ : Type}

namespace RoutingState

variable (s : RoutingState γ)

/-- Append a message; `none` where the bus raises. -/
def publish (message : Message) (next : RoutingStage) : Option (RoutingState γ) :=
  match appendAndSeq s.events message with
  | .error _ => none
  | .ok (_, events) => some { s with events := events, stage := next }

def goto (next : RoutingStage) : RoutingState γ := { s with stage := next }

end RoutingState

namespace Routing

def observation (stamp : Stamp) (payload : Evidence) : Message where
  msgId := stamp.msgId
  fromAgent := "coordinator"
  toAgent := "*"
  topic := "observation"
  payload := payload
  ts := stamp.now

variable (r : Routing γ)

def rebroadcastMessage (stamp : Stamp) : Message where
  msgId := stamp.msgId
  fromAgent := r.source
  toAgent := r.pending.fromAgent
  topic := "review_verdict"
  payload := rebroadcastPayload r.pending.proposalMsgId r.ruling
  inReplyTo := some r.pending.proposalMsgId
  ts := stamp.now

def approvedMessage (stamp : Stamp) (task : TaskRow) : Message where
  msgId := stamp.msgId
  fromAgent := "coordinator"
  toAgent := "*"
  topic := "decision"
  payload :=
    [("kind", .str "approved_proposal"), ("task_id", .str task.taskId),
      ("action_name", .str r.pending.actionName), ("from_agent", .str r.pending.fromAgent),
      ("proposal_msg_id", .str r.pending.proposalMsgId)]
  ts := stamp.now

def prescreenPayload : Evidence :=
  [("kind", .str "framework_agent_verdict_received"),
    ("proposal_msg_id", .str r.pending.proposalMsgId), ("candidate_id", .str
      (match field r.pending.payload "framework_agent_candidate_id" with
      | none => ""
      | some value => if truthy value then r.session.py.str value else "")),
    ("verdict", .str r.ruling.verdict)]

variable (s : RoutingState γ) (stamp : Stamp)

/-- The head of `_handle_single_verdict`: the proposal is popped, and the
verdict of a pre-screen is observed. -/
def receive : Option (RoutingState γ) :=
  let popped := { s with
    pending := s.pending.filter (fun p => p.proposalMsgId ≠ r.pending.proposalMsgId) }
  match isUpstreamPrPrescreen r.pending.actionName r.pending.payload with
  | none => none
  | some false => some (popped.goto .popped)
  | some true =>
    popped.publish (observation stamp r.prescreenPayload) .popped

def rebroadcastVerdict : Option (RoutingState γ) :=
  { s with rebroadcast := some stamp.msgId }.publish (r.rebroadcastMessage stamp) .decided

/-- The tracks `materialize_candidate` starts on. -/
def materializeCandidate : Option (RoutingState γ) :=
  match candidateOf r.session r.pending.payload with
  | none => none
  | some candidate =>
    let tracks := candidateTracks r.session.py r.pending.payload
    if tracks.fst then some (s.goto (.upstreamReading candidate tracks.snd))
    else some (s.goto (.authorReading candidate false))

/-- `materialize_approved_proposal` up to the creation of the task. -/
def materializeApprovedProposal (params : Evidence) : Option (RoutingState γ) :=
  match isUpstreamPrPrescreen r.pending.actionName r.pending.payload with
  | none => none
  | some true => r.materializeCandidate s
  | some false =>
    match seedMaterializedParams r.session r.pending r.ruling.approvedVariantNames s.tasks
        (proposedParams r.session r.pending params) with
    | .error skip => some (s.goto (.skipping skip))
    | .ok params =>
      some (s.goto (.reading (approvedSpec r.session r.pending params) 0))

/-- `_apply_verdict_outcome`; what a verdict that lets nothing through leads
to makes no task of the proposal. -/
def applyVerdictOutcome : Option (RoutingState γ) :=
  match orEmpty (field r.pending.payload "params") with
  | none => none
  | some params =>
    if isGeakReview params then some (s.goto (.ended .geakReview))
    else if r.ruling.letsThrough then r.materializeApprovedProposal s params
    else some (s.goto (.ended .declined))

variable (spec : TaskSpec)

def createCall : CreateCall where
  spec := spec
  provided := r.session.dispatchOrigin

def attemptSpec (attempt : Nat) : TaskSpec :=
  { spec with idempotencyKey := retryKey spec.idempotencyKey attempt }

/-- The read of an attempt of `create_on_free_key`. -/
def readAttempt (attempt : Nat) : Option (RoutingState γ) :=
  match readExisting s.tasks (r.createCall (attemptSpec spec attempt)) with
  | .absent => some (s.goto (.inserting spec attempt))
  | .returned twin _ =>
    if twinAnswers r.session r.pending.actionName twin then
      some (s.goto (.answered (answeredSkip twin)))
    else if attempt + 1 < retryKeyAttempts then
      some (s.goto (.reading spec (attempt + 1)))
    else
      some (s.goto (.skipping
        { reason := "idempotency_key_exhausted"
          fields := [("idempotency_key", .str spec.idempotencyKey)] }))
  | .raised _ => none
  | .called => none

def insert (stamp : Stamp) (next : TaskRow -> RoutingStage) : Except CreateError (RoutingState γ) :=
  match insertQueuedTask s.tasks (r.createCall spec).inserted stamp.taskId stamp.now with
  | .error e => .error e
  | .ok (task, tasks) => .ok { s with tasks := tasks, stage := next task }

/-- Where a candidate goes after its first track. -/
def afterUpstream (candidate : Evidence) (wantAuthor hasTask : Bool) : RoutingStage :=
  if wantAuthor then .authorReading candidate hasTask
  else if hasTask then .ended .materialized
  else .ended .candidateFailed

def afterFailedAuthor (hasTask : Bool) : RoutingStage :=
  if hasTask then .ended .materialized else .ended .candidateFailed

variable (candidate : Evidence)

/-- The read of `_enqueue_framework_agent_task`, which catches what the
creation raises. -/
def readUpstream (wantAuthor : Bool) : RoutingState γ :=
  match upstreamSpec r.session candidate with
  | none => s.goto (afterUpstream candidate wantAuthor false)
  | some spec =>
    match readExisting s.tasks (r.createCall spec) with
    | .absent => s.goto (.upstreamInserting candidate wantAuthor)
    | .returned _ _ => s.goto (afterUpstream candidate wantAuthor true)
    | .raised _ => s.goto (afterUpstream candidate wantAuthor false)
    | .called => s

def insertUpstream (wantAuthor : Bool) (stamp : Stamp) : RoutingState γ :=
  match upstreamSpec r.session candidate with
  | none => s.goto (afterUpstream candidate wantAuthor false)
  | some spec =>
    match r.insert s spec stamp (fun _ => afterUpstream candidate wantAuthor true) with
    | .error _ => s.goto (afterUpstream candidate wantAuthor false)
    | .ok s => s

def authorSpec : TaskSpec :=
  authoringSpec r.session candidate (match field r.pending.payload "audit" with
    | some (.obj audit) => some (.obj audit)
    | _ => none)

/-- The read of `_enqueue_framework_agent_authoring_specialist`; the errors of
the read are no database errors and end the routing. -/
def readAuthor (hasTask : Bool) : Option (RoutingState γ) :=
  match readExisting s.tasks (r.createCall (r.authorSpec candidate)) with
  | .absent => some (s.goto (.authorInserting candidate hasTask))
  | .returned _ _ => some (s.goto (.ended .materialized))
  | .raised _ => none
  | .called => none

/-- A key or id that is taken is a database error, which is caught. -/
def insertAuthor (hasTask : Bool) (stamp : Stamp) : Option (RoutingState γ) :=
  match r.insert s (r.authorSpec candidate) stamp (fun _ => .ended .materialized) with
  | .ok s => some s
  | .error .uniqueConstraint => some (s.goto (afterFailedAuthor hasTask))
  | .error _ => none

/-- The next step of the routing; `none` where the code raises. -/
def next : Option (RoutingState γ) :=
  match s.stage with
  | .received => r.receive s stamp
  | .popped => r.rebroadcastVerdict s stamp
  | .decided => r.applyVerdictOutcome s
  | .reading spec attempt => r.readAttempt s spec attempt
  | .inserting spec attempt =>
    (r.insert s (attemptSpec spec attempt) stamp .created).toOption
  | .skipping skip =>
    s.publish (observation stamp (skippedPayload r.pending skip)) (.ended .skipped)
  | .answered skip =>
    s.publish (observation stamp (skippedPayload r.pending skip)) (.ended .materialized)
  | .created task =>
    s.publish (r.approvedMessage stamp task) (.ended .materialized)
  | .upstreamReading candidate wantAuthor =>
    some (r.readUpstream s candidate wantAuthor)
  | .upstreamInserting candidate wantAuthor =>
    some (r.insertUpstream s candidate wantAuthor stamp)
  | .authorReading candidate hasTask => r.readAuthor s candidate hasTask
  | .authorInserting candidate hasTask =>
    r.insertAuthor s candidate hasTask stamp
  | .ended _ => none

def step : RoutingOp -> Option (RoutingState γ)
  | .route stamp => r.next s stamp
  | .append message => s.publish message s.stage
  | .registry op => some { s with tasks := op.write s.tasks }

/-- The machine of a routing, started on any log and tasks when the verdict on
a pending proposal is received. -/
def machine : Machine (RoutingState γ) RoutingOp where
  init s := r.pending ∈ s.pending ∧ s.stage = .received ∧ s.rebroadcast = none
  step := r.step

end Routing

/-!
## What a restarted process finds
-/

def Rebroadcasts (s : RoutingState γ) (e : Event) : Prop :=
  e ∈ s.events ∧ s.rebroadcast = some e.msgId

def LetsThrough (e : Event) : Prop :=
  field e.payload "verdict" = some (.str "approve") ∨
    field e.payload "verdict" = some (.str "advise")

/-- Whether `replay_for_resume` makes a proposal pending again. -/
def pendsAfterResume (py : Conversions γ) (events : EventLog) (proposalMsgId : String) : Bool :=
  match replayForResume py events with
  | .error _ => false
  | .ok pending =>
    decide (proposalMsgId ∈ pending.map PendingProposal.proposalMsgId)

namespace Routing

variable (r : Routing γ)

def IsPrescreen : Prop :=
  isUpstreamPrPrescreen r.pending.actionName r.pending.payload = some true

/-- A GEAK source review, whose verdict `record_review` keeps for itself. -/
def IsGeakReview : Prop :=
  exists params, orEmpty (field r.pending.payload "params") = some params ∧
    isGeakReview params = true

/-- The keys under which a task of the proposal may be found: the key of its
content or a retry of it, or one of the two keys of an upstream candidate. -/
inductive ProposalKey (r : Routing γ) : String -> Prop where
  | approved {params seeded : Evidence} {tasks : Tasks} {attempt : Nat} :
    orEmpty (field r.pending.payload "params") = some params ->
    seedMaterializedParams r.session r.pending r.ruling.approvedVariantNames
      tasks (proposedParams r.session r.pending params) = .ok seeded ->
    attempt < retryKeyAttempts ->
    ProposalKey r (retryKey (approvedIdempotencyKey r.session r.pending.actionName seeded) attempt)
  | upstream {candidate : Evidence} : r.IsPrescreen ->
    candidateOf r.session r.pending.payload = some candidate ->
    ProposalKey r (upstreamKey r.session.py candidate)
  | authoring {candidate : Evidence} : r.IsPrescreen ->
    candidateOf r.session r.pending.payload = some candidate ->
    ProposalKey r (authoringKey r.session.py candidate)

def HasTask (tasks : Tasks) : Prop :=
  exists task, task ∈ tasks ∧ r.ProposalKey task.idempotencyKey

def SkipRecorded (events : EventLog) : Prop :=
  exists e skip, e ∈ events ∧ e.topic = .observation ∧ e.payload = skippedPayload r.pending skip

variable (s : RoutingState γ)

def Survives : Prop :=
  pendsAfterResume r.session.py s.events r.pending.proposalMsgId = true ∨ r.HasTask s.tasks

/-!
## The invariant

What each stage knows of the proposal, the log and the tasks.
-/

def SpecOf (spec : TaskSpec) : Prop :=
  forall attempt, attempt < retryKeyAttempts -> r.ProposalKey (retryKey spec.idempotencyKey attempt)

def CandidateOf (candidate : Evidence) : Prop :=
  r.IsPrescreen ∧ candidateOf r.session r.pending.payload = some candidate

def Knows : RoutingStage -> Prop
  | .received => s.rebroadcast = none
  | .popped => s.rebroadcast = none
  | .decided => True
  | .reading spec attempt => r.SpecOf spec ∧ attempt < retryKeyAttempts
  | .inserting spec attempt => r.SpecOf spec ∧ attempt < retryKeyAttempts
  | .skipping _ => True
  | .answered _ => r.HasTask s.tasks
  | .created _ => r.HasTask s.tasks
  | .upstreamReading candidate _ => r.CandidateOf candidate
  | .upstreamInserting candidate _ => r.CandidateOf candidate
  | .authorReading candidate hasTask =>
    r.CandidateOf candidate ∧ (hasTask = true -> r.HasTask s.tasks)
  | .authorInserting candidate hasTask =>
    r.CandidateOf candidate ∧ (hasTask = true -> r.HasTask s.tasks)
  | .ended .declined => r.ruling.letsThrough = false
  | .ended .geakReview => r.IsGeakReview
  | .ended .skipped => r.SkipRecorded s.events
  | .ended .materialized => r.HasTask s.tasks
  | .ended .candidateFailed => r.IsPrescreen

/-- The republished verdict is the ruling's, and the stage knows what it
should. -/
structure Sound (r : Routing γ) (s : RoutingState γ) : Prop where
  verdict : forall msgId, s.rebroadcast = some msgId ->
    exists e, e ∈ s.events ∧ e.msgId = msgId ∧
      field e.payload "verdict" = some (.str r.ruling.verdict)
  stage : r.Knows s s.stage

structure Grows (s t : RoutingState γ) : Prop where
  events : forall e, e ∈ s.events -> e ∈ t.events
  tasks : KeepsKeys s.tasks t.tasks

variable {s t : RoutingState γ} {r : Routing γ}

theorem HasTask.grows (h : r.HasTask s.tasks) (hst : Grows s t) : r.HasTask t.tasks := by
  rcases h with ⟨task, htask, hkey⟩
  rcases hst.tasks task htask with ⟨kept, hkept, hsame⟩
  refine ⟨kept, hkept, ?_⟩
  rw [hsame]
  exact hkey

theorem SkipRecorded.grows (h : r.SkipRecorded s.events) (hst : Grows s t) :
    r.SkipRecorded t.events := by
  rcases h with ⟨e, skip, he, htopic, hpayload⟩
  exact ⟨e, skip, hst.events e he, htopic, hpayload⟩

theorem Knows.grows {stage : RoutingStage} (h : r.Knows s stage)
    (hst : Grows s t) (hsame : t.rebroadcast = s.rebroadcast) : r.Knows t stage := by
  cases stage with
  | received | popped => exact hsame.trans h
  | answered skip | created task => exact HasTask.grows h hst
  | authorReading candidate hasTask | authorInserting candidate hasTask =>
    exact ⟨h.left, fun hyes => (h.right hyes).grows hst⟩
  | ended how =>
    cases how with
    | skipped => exact SkipRecorded.grows h hst
    | materialized => exact HasTask.grows h hst
    | _ => exact h
  | _ => exact h

theorem Sound.grows (h : r.Sound s) (hst : Grows s t)
    (hsame : t.rebroadcast = s.rebroadcast) (hstage : r.Knows t t.stage) : r.Sound t where
  verdict msgId hmsg := by
    rcases h.verdict msgId (hsame.symm.trans hmsg) with ⟨e, he, hid, hverdict⟩
    exact ⟨e, hst.events e he, hid, hverdict⟩
  stage := hstage

/-!
## One step

A step moves on, publishes a message or inserts a task.
-/

theorem Grows.of_same (hevents : t.events = s.events) (htasks : t.tasks = s.tasks) : Grows s t := by
  constructor
  · intro e he
    rw [hevents]
    exact he
  · rw [htasks]
    exact KeepsKeys.refl s.tasks

variable {next : RoutingStage}

theorem Sound.goto (h : r.Sound s) (hnext : r.Knows s next) : r.Sound (s.goto next) := by
  have hgrows : Grows s (s.goto next) := Grows.of_same rfl rfl
  exact h.grows hgrows rfl (hnext.grows hgrows rfl)

structure Publishes (s : RoutingState γ) (message : Message)
    (next : RoutingStage) (t : RoutingState γ) : Prop where
  row : exists topic seq, Topic.ofName? message.topic = some topic ∧
    message.toEvent topic seq ∈ t.events
  grows : Grows s t
  stage : t.stage = next
  rebroadcast : t.rebroadcast = s.rebroadcast

theorem publish_eq_some {message : Message}
    (h : s.publish message next = some t) : Publishes s message next t := by
  unfold RoutingState.publish at h
  split at h
  · cases h
  rename_i seq events happend
  cases h
  rcases appendAndSeq_ok happend with ⟨topic, htopic, hrows, _, _⟩
  refine ⟨⟨topic, seq, htopic, ?_⟩, ⟨?_, KeepsKeys.refl s.tasks⟩, rfl, rfl⟩
  · rw [← EventLog.mem_rows, hrows]
    exact List.mem_append_right _ List.mem_cons_self
  · intro e he
    rw [← EventLog.mem_rows] at he ⊢
    rw [hrows]
    exact List.mem_append_left _ he

theorem Sound.publish {message : Message} (h : r.Sound s)
    (hpublish : s.publish message next = some t) (hnext : r.Knows s next) : r.Sound t := by
  have hp := publish_eq_some hpublish
  apply h.grows hp.grows hp.rebroadcast
  rw [hp.stage]
  exact hnext.grows hp.grows hp.rebroadcast

structure InsertsTask (s : RoutingState γ) (spec : TaskSpec)
    (next : TaskRow -> RoutingStage) (t : RoutingState γ) : Prop where
  row : exists task, task ∈ t.tasks ∧
    task.idempotencyKey = spec.idempotencyKey ∧ t.stage = next task
  grows : Grows s t
  rebroadcast : t.rebroadcast = s.rebroadcast

variable {spec : TaskSpec}

theorem insert_eq_ok {stamp : Stamp} {next : TaskRow -> RoutingStage}
    (h : r.insert s spec stamp next = .ok t) : InsertsTask s spec next t := by
  unfold insert at h
  split at h
  · cases h
  rename_i task tasks hinsert
  cases h
  have hi := insertQueuedTask_ok hinsert
  refine ⟨⟨task, ?_, ?_, rfl⟩, ⟨fun _ he => he, hi.keepsKeys⟩, rfl⟩
  · rw [← Table.mem_rows, hi.rows]
    exact List.mem_append_right _ List.mem_cons_self
  · rw [hi.taskKey]
    exact CreateCall.inserted_idempotencyKey _

theorem Sound.insert {stamp : Stamp} {next : TaskRow -> RoutingStage} (h : r.Sound s)
    (hkey : r.ProposalKey spec.idempotencyKey) (hinsert : r.insert s spec stamp next = .ok t)
    (hnext : forall task, r.HasTask t.tasks -> r.Knows t (next task)) : r.Sound t := by
  have hi := insert_eq_ok hinsert
  rcases hi.row with ⟨task, htask, hsame, hstage⟩
  apply h.grows hi.grows hi.rebroadcast
  rw [hstage]
  exact hnext task ⟨task, htask, hsame.symm ▸ hkey⟩

theorem hasTask_of_readExisting {tasks : Tasks} {call : CreateCall}
    {twin : TaskRow} {wasExisting : Bool} (h : readExisting tasks call = .returned twin wasExisting)
    (hkey : r.ProposalKey call.spec.idempotencyKey) : r.HasTask tasks := by
  cases hfound : findByIdempotencyKey tasks call.spec.idempotencyKey with
  | none =>
    unfold readExisting at h
    rw [hfound] at h
    split at h <;> cases h
  | some task =>
    rcases findByIdempotencyKey_eq_some hfound with ⟨htask, hsame⟩
    refine ⟨task, htask, ?_⟩
    rw [hsame]
    exact hkey

/-!
## The stages one after the other
-/

section

variable {r : Routing γ} {s t : RoutingState γ} {stamp : Stamp}

theorem sound_receive (h : r.Sound s) (hnone : s.rebroadcast = none)
    (hnext : r.receive s stamp = some t) : r.Sound t := by
  have hpopped : forall pending, r.Sound { s with pending := pending, stage := .popped } := by
    intro pending
    exact h.grows (Grows.of_same rfl rfl) rfl hnone
  unfold receive at hnext
  split at hnext
  · cases hnext
  · cases hnext
    exact hpopped _
  · have hp := publish_eq_some hnext
    apply (hpopped s.pending).grows ⟨hp.grows.events, hp.grows.tasks⟩ hp.rebroadcast
    rw [hp.stage]
    exact hp.rebroadcast.trans hnone

theorem sound_rebroadcastVerdict (hnext : r.rebroadcastVerdict s stamp = some t) : r.Sound t := by
  have hp := publish_eq_some hnext
  rcases hp.row with ⟨topic, seq, _, hrow⟩
  constructor
  · intro msgId hmsg
    refine ⟨_, hrow, ?_, verdict_rebroadcastPayload _ _⟩
    exact Option.some.inj (hp.rebroadcast.symm.trans hmsg)
  · rw [hp.stage]
    trivial

theorem specOf_approvedSpec {params seeded : Evidence} {tasks : Tasks}
    (hparams : orEmpty (field r.pending.payload "params") = some params)
    (hseeded : seedMaterializedParams r.session r.pending r.ruling.approvedVariantNames tasks
      (proposedParams r.session r.pending params) = .ok seeded) :
    r.SpecOf (approvedSpec r.session r.pending seeded) := by
  intro attempt hattempt
  exact ProposalKey.approved hparams hseeded hattempt

theorem sound_materializeCandidate (h : r.Sound s) (hscreen : r.IsPrescreen)
    (hnext : r.materializeCandidate s = some t) : r.Sound t := by
  revert hnext
  fun_cases materializeCandidate r s with (intro hnext; cases hnext)
  | case2 candidate hcandidate => exact h.goto ⟨hscreen, hcandidate⟩
  | case3 candidate hcandidate => exact h.goto ⟨⟨hscreen, hcandidate⟩, nofun⟩

theorem sound_applyVerdictOutcome (h : r.Sound s)
    (hnext : r.applyVerdictOutcome s = some t) : r.Sound t := by
  unfold applyVerdictOutcome at hnext
  split at hnext
  · cases hnext
  rename_i params hparams
  split at hnext
  · rename_i hgeak
    cases hnext
    exact h.goto ⟨params, hparams, hgeak⟩
  split at hnext
  · revert hnext
    fun_cases materializeApprovedProposal r s params with
    | case1 => nofun
    | case2 hscreen => exact sound_materializeCandidate h hscreen
    | case3 =>
      rintro ⟨⟩
      exact h.goto trivial
    | case4 _ seeded hseeded =>
      rintro ⟨⟩
      exact h.goto ⟨specOf_approvedSpec hparams hseeded, by decide⟩
  · rename_i hdeclined
    cases hnext
    exact h.goto (Bool.eq_false_iff.mpr hdeclined)

theorem sound_readAttempt {attempt : Nat} (h : r.Sound s)
    (hspec : r.SpecOf spec) (hattempt : attempt < retryKeyAttempts)
    (hnext : r.readAttempt s spec attempt = some t) : r.Sound t := by
  revert hnext
  fun_cases readAttempt r s spec attempt with (intro hnext; cases hnext)
  | case1 => exact h.goto ⟨hspec, hattempt⟩
  | case2 twin wasExisting hread =>
    exact h.goto (hasTask_of_readExisting hread (hspec attempt hattempt))
  | case3 _ _ _ _ hretry => exact h.goto ⟨hspec, hretry⟩
  | case4 => exact h.goto trivial

variable {candidate : Evidence} {hasTask wantAuthor : Bool}

section

variable (hcandidate : r.CandidateOf candidate)

include hcandidate

theorem knows_afterUpstream (htask : hasTask = true -> r.HasTask s.tasks) :
    r.Knows s (afterUpstream candidate wantAuthor hasTask) := by
  fun_cases afterUpstream candidate wantAuthor hasTask with
  | case1 => exact ⟨hcandidate, htask⟩
  | case2 _ hhas => exact htask hhas
  | case3 => exact hcandidate.left

theorem knows_afterFailedAuthor (htask : hasTask = true -> r.HasTask s.tasks) :
    r.Knows s (afterFailedAuthor hasTask) := by
  unfold afterFailedAuthor
  split
  · rename_i hhas
    exact htask hhas
  · exact hcandidate.left

theorem upstreamSpec_key (hspec : upstreamSpec r.session candidate = some spec) :
    r.ProposalKey spec.idempotencyKey := by
  rcases some_of_guard hspec with ⟨_, rfl⟩
  exact ProposalKey.upstream hcandidate.left hcandidate.right

theorem authorSpec_key : r.ProposalKey (r.authorSpec candidate).idempotencyKey :=
  ProposalKey.authoring hcandidate.left hcandidate.right

end

section

variable (h : r.Sound s)

include h

section

variable (hcandidate : r.CandidateOf candidate)

include hcandidate

theorem sound_readUpstream : r.Sound (r.readUpstream s candidate wantAuthor) := by
  have hfailed : r.Sound (s.goto (afterUpstream candidate wantAuthor false)) :=
    h.goto (knows_afterUpstream hcandidate nofun)
  fun_cases readUpstream r s candidate wantAuthor with
  | case2 => exact h.goto hcandidate
  | case3 spec hspec twin wasExisting hread =>
    have htask := hasTask_of_readExisting hread (upstreamSpec_key hcandidate hspec)
    exact h.goto (knows_afterUpstream hcandidate (fun _ => htask))
  | case5 => exact h
  | _ => exact hfailed

theorem sound_insertUpstream : r.Sound (r.insertUpstream s candidate wantAuthor stamp) := by
  have hfailed : r.Sound (s.goto (afterUpstream candidate wantAuthor false)) :=
    h.goto (knows_afterUpstream hcandidate nofun)
  fun_cases insertUpstream r s candidate wantAuthor stamp with
  | case3 spec hspec after hinsert =>
    apply h.insert (upstreamSpec_key hcandidate hspec) hinsert
    intro _ htask
    exact knows_afterUpstream hcandidate (fun _ => htask)
  | _ => exact hfailed

theorem sound_readAuthor (htask : hasTask = true -> r.HasTask s.tasks)
    (hnext : r.readAuthor s candidate hasTask = some t) : r.Sound t := by
  revert hnext
  fun_cases readAuthor r s candidate hasTask with (intro hnext; cases hnext)
  | case1 => exact h.goto ⟨hcandidate, htask⟩
  | case2 twin wasExisting hread =>
    exact h.goto (hasTask_of_readExisting hread (authorSpec_key hcandidate))

theorem sound_insertAuthor (htask : hasTask = true -> r.HasTask s.tasks)
    (hnext : r.insertAuthor s candidate hasTask stamp = some t) : r.Sound t := by
  revert hnext
  fun_cases insertAuthor r s candidate hasTask stamp with (intro hnext; cases hnext)
  | case1 after hinsert => exact h.insert (authorSpec_key hcandidate) hinsert fun _ => id
  | case2 => exact h.goto (knows_afterFailedAuthor hcandidate htask)

end

theorem sound_next (hnext : r.next s stamp = some t) : r.Sound t := by
  have hstage := h.stage
  unfold next at hnext
  split at hnext
  all_goals
    rename_i hat
    rw [hat] at hstage
  · exact sound_receive h hstage hnext
  · exact sound_rebroadcastVerdict hnext
  · exact sound_applyVerdictOutcome h hnext
  · exact sound_readAttempt h hstage.left hstage.right hnext
  · rename_i spec attempt
    cases hinsert : r.insert s (attemptSpec spec attempt) stamp .created with
    | error e =>
      rw [hinsert] at hnext
      cases hnext
    | ok after =>
      rw [hinsert] at hnext
      cases hnext
      exact h.insert (hstage.left attempt hstage.right) hinsert fun _ => id
  · rename_i skip
    have hp := publish_eq_some hnext
    rcases hp.row with ⟨topic, seq, htopic, hrow⟩
    apply h.grows hp.grows hp.rebroadcast
    rw [hp.stage]
    exact ⟨_, skip, hrow, (Option.some.inj htopic).symm, rfl⟩
  · exact h.publish hnext hstage
  · exact h.publish hnext hstage
  · cases hnext
    exact sound_readUpstream h hstage
  · cases hnext
    exact sound_insertUpstream h hstage
  · exact sound_readAuthor h hstage.left hstage.right hnext
  · exact sound_insertAuthor h hstage.left hstage.right hnext
  · cases hnext

theorem sound_step {op : RoutingOp} (hstep : r.step s op = some t) : r.Sound t := by
  cases op with
  | route stamp => exact sound_next h hstep
  | append message => exact h.publish hstep h.stage
  | registry op =>
    cases hstep
    have hgrows : Grows s { s with tasks := op.write s.tasks } :=
      ⟨fun _ he => he, (writeEffect s.tasks op).right⟩
    exact h.grows hgrows rfl (h.stage.grows hgrows rfl)

end

theorem sound_reachable (h : r.machine.Reachable s) : r.Sound s := by
  apply h.invariant (I := r.Sound)
  · intro start hinit
    rcases hinit with ⟨_, hstage, hnone⟩
    constructor
    · intro msgId hmsg
      rw [hnone] at hmsg
      cases hmsg
    · rw [hstage]
      exact hnone
  · intro before op after hbefore _ hstep
    exact sound_step hbefore hstep

theorem letsThrough_of_rebroadcasts {e : Event} (h : r.Sound s)
    (hrow : Rebroadcasts s e) (hverdict : LetsThrough e) : r.ruling.letsThrough = true := by
  rcases h.verdict e.msgId hrow.right with ⟨row, hmem, hid, hfield⟩
  have hsame := EventLog.eq_of_msgId_eq hmem hrow.left hid
  rw [hsame] at hfield
  unfold CriticRuling.letsThrough
  rw [Bool.or_eq_true, decide_eq_true_eq, decide_eq_true_eq]
  rcases hverdict with hverdict | hverdict
  · rw [hfield] at hverdict
    left
    injection hverdict with hverdict
    injection hverdict
  · rw [hfield] at hverdict
    right
    injection hverdict with hverdict
    injection hverdict

end

end Routing

/-!
## Approval and crashes
-/

/-- Wherever a crash stops the routing of a verdict, unless it is between the
commit of the republished verdict and what settles the proposal: if that
verdict lets the proposal through, then after the restart the proposal is
pending or its task exists, or it was turned down on the way, as a GEAK source
review, by a recorded skip, or as a candidate no task could be enqueued
for. -/
theorem settled_approval_survives {r : Routing γ} {s : RoutingState γ}
    {e : Event} (hreach : r.machine.Reachable s) (hrow : Rebroadcasts s e)
    (hverdict : LetsThrough e) (hsettled : s.stage.unsettled = false) :
    r.Survives s ∨ r.IsGeakReview ∨ r.SkipRecorded s.events ∨
      (r.IsPrescreen ∧ s.stage = .ended .candidateFailed) := by
  have hsound := Routing.sound_reachable hreach
  have hthrough := Routing.letsThrough_of_rebroadcasts hsound hrow hverdict
  have hknows := hsound.stage
  have hundecided : s.rebroadcast ≠ none := by
    rw [hrow.right]
    exact Option.some_ne_none e.msgId
  cases hstage : s.stage with
  | received | popped =>
    rw [hstage] at hknows
    exact absurd hknows hundecided
  | answered skip | created task =>
    rw [hstage] at hknows
    exact Or.inl (Or.inr hknows)
  | authorReading candidate hasTask | authorInserting candidate hasTask =>
    rw [hstage] at hknows hsettled
    cases hasTask with
    | true => exact Or.inl (Or.inr (hknows.right rfl))
    | false => cases hsettled
  | ended how =>
    rw [hstage] at hknows
    cases how with
    | declined => exact absurd (hthrough.symm.trans hknows) (by decide)
    | geakReview => exact Or.inr (Or.inl hknows)
    | skipped => exact Or.inr (Or.inr (Or.inl hknows))
    | materialized => exact Or.inl (Or.inr hknows)
    | candidateFailed => exact Or.inr (Or.inr (Or.inr ⟨hknows, rfl⟩))
  | _ =>
    rw [hstage] at hsettled
    cases hsettled

section

def textOf : Json -> String
  | .str s => s
  | _ => ""

def openSession : RoutingSession Rat where
  py := { ofRat := some, ofText := fun _ => none, str := textOf }
  dictOfItems := fun _ => none
  gain := fun gain => if gain = 0 then none else some (.real gain)
  exploreGridDenial := fun _ => none
  seedExploreParams := id
  seedIntegratePatchParams := id
  backfillDomain := id
  specialistInFlightDenial := fun _ _ => none
  paramsDigest := fun _ _ => "bf21a9e8fbc5a384"
  registryLanesTtl := fun _ => (["benchmark_lane"], 3600)
  isValidMeasurement := fun _ => false
  dispatchOrigin := some { phase := "EXPLORE", macroCycle := 0, tick := 1 }
  upstreamParams := id
  authoringParams := fun candidate _ => candidate
  authoringLanesTtl := fun _ => (["research_lane"], 3600)

def gridProposal : PendingProposal Rat where
  proposalMsgId := "4f1d"
  fromAgent := "orchestration"
  actionName := "explore"
  predictedGainPct := 0
  payload :=
    [("action_name", .str "explore"),
      ("params", .obj [("grid", .arr [.obj [("name", .str "chunked")]])])]

def gridMessage : Message where
  msgId := "4f1d"
  fromAgent := "orchestration"
  toAgent := "*"
  topic := "proposal"
  payload := gridProposal.payload
  ts := ⟨0⟩

variable (names : Option (List String))

/-- An approval of the variants of these names, or of the whole grid. -/
def approval : Routing Rat where
  session := openSession
  source := "critic"
  pending := gridProposal
  ruling :=
    { verdict := "approve", reasoning := "in budget"
      approvedVariantNames := names }

def verdictReceived : RoutingState Rat where
  events := EventLog.empty
  tasks := Table.empty
  pending := [gridProposal]
  stage := .received

def routeAs (msgId : String) : RoutingOp :=
  .route { msgId := msgId, taskId := "task-" ++ msgId, now := ⟨0⟩ }

theorem verdictReceived_init : (approval names).machine.init verdictReceived :=
  ⟨List.mem_cons_self, rfl, rfl⟩

def approved (s : RoutingState Rat) : Bool :=
  s.events.rows.any (fun e =>
    decide (s.rebroadcast = some e.msgId) && (field e.payload "verdict").any (decides "approve"))

theorem rebroadcasts_of_approved {s : RoutingState Rat}
    (h : approved s = true) : exists e, Rebroadcasts s e ∧ LetsThrough e := by
  rcases List.any_eq_true.mp h with ⟨e, he, hrow⟩
  rw [Bool.and_eq_true, decide_eq_true_eq, Option.any_eq_true] at hrow
  rcases hrow with ⟨hid, verdict, hfield, hverdict⟩
  rw [decides_eq_true.mp hverdict] at hfield
  exact ⟨e, ⟨he, hid⟩, Or.inl hfield⟩

/-- A crash right after the insertion finds the task. -/
theorem settled_approval_survives_inserted :
    exists s e, (approval none).machine.Reachable s ∧ Rebroadcasts s e ∧
      LetsThrough e ∧ s.stage.unsettled = false ∧ s.tasks.rows.length = 1 ∧
      ((approval none).Survives s ∨ (approval none).IsGeakReview ∨
        (approval none).SkipRecorded s.events ∨
        ((approval none).IsPrescreen ∧ s.stage = .ended .candidateFailed)) := by
  have hrun := Machine.Reachable.exists_of_runIf (M := (approval none).machine)
    (P := fun s => approved s = true ∧ s.stage.unsettled = false ∧
      s.tasks.rows.length = 1) verdictReceived
    [.append gridMessage, routeAs "a1", routeAs "a2", routeAs "a3", routeAs "a4", routeAs "a5"]
    (verdictReceived_init none) (by decide +kernel)
  rcases hrun with ⟨s, hreach, happroved, hsettled, htasks⟩
  rcases rebroadcasts_of_approved happroved with ⟨e, hrow, hverdict⟩
  exact ⟨s, e, hreach, hrow, hverdict, hsettled, htasks,
    settled_approval_survives hreach hrow hverdict hsettled⟩

/-- The log holds the approval, the proposal is not pending after a restart,
and there is no task. -/
def lost (s : RoutingState Rat) : Bool :=
  approved s &&
    (!pendsAfterResume openSession.py s.events gridProposal.proposalMsgId && s.tasks.rows.isEmpty)

theorem not_survives_of_lost {names : Option (List String)}
    {s : RoutingState Rat} (h : lost s = true) :
    (exists e, Rebroadcasts s e ∧ LetsThrough e) ∧ ¬ (approval names).Survives s := by
  unfold lost at h
  rw [Bool.and_eq_true, Bool.and_eq_true, Bool.not_eq_true'] at h
  rcases h with ⟨happroved, hpends, htasks⟩
  refine ⟨rebroadcasts_of_approved happroved, ?_⟩
  intro hsurvives
  rcases hsurvives with hagain | htask
  · exact absurd (hagain.symm.trans hpends) (by decide)
  rcases htask with ⟨task, htask, _⟩
  rw [← Table.mem_rows, List.isEmpty_iff.mp htasks] at htask
  cases htask

/-- A crash right after the republished approval leaves the proposal decided
and without a task; so does, without a crash, an approval that names no variant
of the grid. -/
theorem approval_does_not_survive :
    (exists s, (approval none).machine.Reachable s ∧
      s.stage.unsettled = true ∧ (exists e, Rebroadcasts s e ∧ LetsThrough e) ∧
      ¬ (approval none).Survives s) ∧
    (exists s, (approval (some ["fused"])).machine.Reachable s ∧
      s.stage.unsettled = false ∧ (exists e, Rebroadcasts s e ∧ LetsThrough e) ∧
      ¬ (approval (some ["fused"])).Survives s) := by
  constructor
  · have hrun := Machine.Reachable.exists_of_runIf (M := (approval none).machine)
      (P := fun s => lost s = true ∧ s.stage.unsettled = true) verdictReceived
      [.append gridMessage, routeAs "a1", routeAs "a2"]
      (verdictReceived_init none) (by decide +kernel)
    rcases hrun with ⟨s, hreach, hlost, hstage⟩
    exact ⟨s, hreach, hstage, not_survives_of_lost hlost⟩
  · have hrun := Machine.Reachable.exists_of_runIf (M := (approval (some ["fused"])).machine)
      (P := fun s => lost s = true ∧ s.stage.unsettled = false) verdictReceived
      [.append gridMessage, routeAs "a1", routeAs "a2", routeAs "a3", routeAs "a4"]
      (verdictReceived_init (some ["fused"])) (by decide +kernel)
    rcases hrun with ⟨s, hreach, hlost, hstage⟩
    exact ⟨s, hreach, hstage, not_survives_of_lost hlost⟩

end

end

end Loop
end Hyperloom
