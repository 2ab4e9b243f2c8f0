import Hyperloom.Bus.Retention
import Hyperloom.State.RoundMutex
import Hyperloom.State.TaskRegistry

/-!
# The reconciler

The repair pass at the start of a tick: it fails the tasks of dead holders,
takes back dead holders' lanes, denies reviews that waited too long, and moves
on or settles the open rounds whose holder has ended.
-/

namespace Hyperloom
namespace Bringup

open Library Storage Bus State

def terminalHolderCapSec : Rat := 300

def reviewTtlSec : Rat := 1800

def unixOf (stamp : Iso) : Unix := (stamp.micros : Rat) / 1000000

/-!
## How a task ended
-/

/-- `entry.get("evidence")`, when that is an object. -/
def evidenceOf : HistoryEntry -> Option Evidence
  | .moved _ _ _ evidence => some evidence
  | .completion _ evidence => some evidence
  | .other entry =>
    match entry.get? "evidence" with
    | some (.obj evidence) => some evidence
    | _ => none
  | _ => none

variable (evidence : Evidence)

/-- The `cleanup_confirmed` that stands beside an `outcome` object. -/
def cleanupConfirmed? : Option Bool :=
  match (Json.obj evidence).get? "outcome", (Json.obj evidence).get? "cleanup_confirmed" with
  | some (.obj _), some (.bool confirmed) => some confirmed
  | _, _ => none

/-- `entry.get("to") == task.state`. -/
def entersState (state : TaskState) : HistoryEntry -> Bool
  | .moved _ target _ _ => decide (target = state)
  | .other entry =>
    match entry.get? "to" with
    | some (.str text) => decide (text = state.name)
    | _ => false
  | _ => false

/-- `evidence.get("reason") != "cancelled_in_flight"`. -/
def notCancelledInFlight : Bool :=
  match (Json.obj evidence).get? "reason" with
  | some (.str reason) => decide (reason ≠ "cancelled_in_flight")
  | _ => true

/-- The loop of `_terminal_by_observation`, newest entry first. -/
def observedEnd (state : TaskState) : List HistoryEntry -> Bool
  | [] => true
  | entry :: older =>
    match (evidenceOf entry).bind cleanupConfirmed? with
    | some confirmed => confirmed
    | none =>
      if entersState state entry then
        match evidenceOf entry with
        | none => true
        | some evidence => notCancelledInFlight evidence
      else observedEnd state older

def terminalByObservation (task : TaskRow) : Bool :=
  task.state.isTerminal && observedEnd task.state task.history.reverse

/-!
## The stores of a pass
-/

structure ReconcileReport where
  leasesReaped : Nat := 0
  settled : List (String × String) := []
  handedOff : List String := []
  failedTasks : List String := []
  failures : List String := []
deriving DecidableEq

/-- The tables the pass repairs, the proposals the loop holds in memory, and
the report of the last pass. -/
structure ReconcileState (γ : Type) where
  tasks : Tasks
  store : RoundDb
  gpus : GpuLeases
  events : EventLog
  proposals : List (PendingProposal γ)
  report : ReconcileReport := {}

section

variable {γ : Type}

/-!
## Open rounds
-/

def holderHasResources (leases : Leases) (gpus : GpuLeases) (taskId : String) : Bool :=
  leases.rows.any (fun row =>
    decide (row.taskId = taskId) && decide (row.lane ≠ .bringupRound)) ||
  gpus.rows.any (fun row => decide (row.taskId = taskId))

variable (py : Conversions γ)

/-- `str(params.get("specialist_task_id", "")) == holder_task_id`. -/
def standsOn (params : Evidence) (holderTaskId : String) : Bool :=
  decide (py.str (((Json.obj params).get? "specialist_task_id").getD (.str "")) = holderTaskId)

def successor (tasks : Tasks) (holderTaskId : String) : Option TaskRow :=
  (queued tasks ++ running tasks).find? (fun task =>
    standsOn py task.params holderTaskId)

/-- `pending.payload.get("params", {})`, where a value without `get` is
`none`. -/
def paramsOf? (pending : PendingProposal γ) : Option Evidence :=
  match (Json.obj pending.payload).get? "params" with
  | none => some []
  | some (.obj params) => some params
  | some _ => none

/-- `_review_owes_a_verdict`; `none` is the `AttributeError` of a `params` that
is not an object. -/
def reviewOwesAVerdict (py : Conversions γ) (holderTaskId : String) :
    List (PendingProposal γ) -> Option Bool
  | [] => some false
  | pending :: rest =>
    match paramsOf? pending with
    | none => none
    | some params =>
      if standsOn py params holderTaskId then some true
      else reviewOwesAVerdict py holderTaskId rest

variable (nowUnix : Unix)

def handoffRequest (next : TaskRow) : RoundRequest where
  requestId := "reconcile:handoff:" ++ next.taskId
  nowUnix := nowUnix
  evidence := [("reason", .str "holder_terminal_with_successor")]

/-- `float(successor.lease_ttl_sec)`, or what the round has left. -/
def handoffLeaseSec (round : Round) (next : TaskRow) : Rat :=
  if next.leaseTtlSec ≠ 0 then next.leaseTtlSec
  else round.expiresUnix - round.renewedUnix

def expireRequest (round : Round) (why : String) : RoundRequest where
  requestId :=
    "reconcile:" ++ why ++ ":" ++ round.roundId ++ ":" ++ toString round.fence
  nowUnix := nowUnix
  evidence :=
    [("reason", .str why), ("cleanup", .str "holder_terminal_without_resources")]

/-- `_expire`.  `EXPIRED_REAPED` is one of `OUTCOMES`, so `settle` does not
raise. -/
def expire (s : ReconcileState γ) (round : Round) (why : String) : ReconcileState γ :=
  match settle s.store round (expireRequest nowUnix round why) RoundOutcome.expiredReaped.name with
  | .error _ => s
  | .ok (result, store) =>
    { s with
      store := store
      report :=
        if result.ok then
          { s.report with
            settled := s.report.settled ++ [(round.roundId, RoundOutcome.expiredReaped.name)] }
        else s.report }

/-- The handoff of `_advance_or_expire`. -/
def advanceTo (s : ReconcileState γ) (round : Round) (next : TaskRow) : ReconcileState γ :=
  let moved := handoff s.store round (handoffRequest nowUnix next) next.taskId
    (handoffLeaseSec round next)
  { s with
    store := moved.snd
    report :=
      if moved.fst.ok then
        { s.report with handedOff := s.report.handedOff ++ [round.roundId] }
      else s.report }

/-- `_advance_or_expire`; `none` is the `AttributeError` of
`_review_owes_a_verdict`, before anything is written. -/
def advanceOrExpire (s : ReconcileState γ) (round : Round) : Option (ReconcileState γ) :=
  match s.tasks.find? round.holderTaskId with
  | none => some s
  | some holder =>
    if terminalByObservation holder = false then some s
    else if holderHasResources s.store.leases s.gpus holder.taskId then some s
    else
      match successor py s.tasks round.holderTaskId with
      | some next => some (advanceTo nowUnix s round next)
      | none =>
        match reviewOwesAVerdict py round.holderTaskId s.proposals with
        | none => none
        | some true => some s
        | some false =>
          if nowUnix - unixOf holder.updatedAt < terminalHolderCapSec then
            some s
          else
            some (expire nowUnix s round "holder_terminal_without_result")

def openRounds (rounds : Rounds) : List Round :=
  (rounds.rows.filter (fun round => round.status = .open)).insertionSort
    (fun a b => a.openedUnix ≤ b.openedUnix)

/-- The loop of `_resolve_open_rounds`, and whether it raised. -/
def resolveRounds (py : Conversions γ) (nowUnix : Unix) :
    List Round -> ReconcileState γ -> ReconcileState γ × Bool
  | [], s => (s, false)
  | round :: rest, s =>
    match advanceOrExpire py nowUnix s round with
    | none => (s, true)
    | some next => resolveRounds py nowUnix rest next

def resolveOpenRounds (s : ReconcileState γ) : ReconcileState γ × Bool :=
  resolveRounds py nowUnix (openRounds s.store.rounds) s

/-!
## Reviews that waited too long
-/

/-- The verdict `_author_timeout_deny` writes. -/
def timeoutDeny (proposal : Event) (age : Rat) (stamp : String × Iso) : Message where
  msgId := stamp.fst
  fromAgent := "coordinator"
  toAgent := proposal.fromAgent
  topic := "review_verdict"
  payload :=
    [("authored_by", .str "coordinator_review_timeout"), ("reasoning", .str
        ("no review verdict arrived within 1800s (waited " ++ toString (roundHalfEven age) ++
          "s); denied by the coordinator so the round it holds can end. " ++
          "A patch nobody reviewed is not an accepted layer.")),
      ("target_proposal_msg_id", .str proposal.msgId), ("verdict", .str "reject")]
  ts := stamp.snd

/-- `_author_timeout_deny`: the deny is written unless a verdict names the
proposal, and a proposal it denies is no longer pending. -/
def authorTimeoutDeny (proposal : Event) (age : Rat) (stamp : String × Iso)
    (s : ReconcileState γ) : Except BusError (ReconcileState γ) :=
  if s.events.rows.any (fun e =>
      decide (e.topic = .reviewVerdict) && (targetOf e).any (decides proposal.msgId)) then
    .ok s
  else
    match appendAndSeq s.events (timeoutDeny proposal age stamp) with
    | .error e => .error e
    | .ok (_, events) =>
      .ok { s with
        events := events
        proposals := s.proposals.filter (fun pending =>
          pending.proposalMsgId ≠ proposal.msgId) }

/-- The loop of `_deny_timed_out_reviews`, and whether the database refused a
row.  `stamps` gives each deny its message id and time. -/
def denyEach (nowUnix : Unix) (stamps : String -> String × Iso) :
    List Event -> ReconcileState γ -> ReconcileState γ × Bool
  | [], s => (s, false)
  | proposal :: rest, s =>
    if nowUnix - unixOf proposal.ts < reviewTtlSec then
      denyEach nowUnix stamps rest s
    else
      match authorTimeoutDeny proposal (nowUnix - unixOf proposal.ts) (stamps proposal.msgId) s with
      | .error _ => (s, true)
      | .ok next => denyEach nowUnix stamps rest next

variable (sql : SqlText) (nowUnix : Unix) (stamps : String -> String × Iso)

def denyTimedOutReviews (s : ReconcileState γ) : ReconcileState γ × Bool :=
  denyEach nowUnix stamps (undecidedProposals sql s.events.rows) s

/-!
## The pass
-/

/-- The rules of a pass, in their order.  The two that follow them write only
`SharedState`. -/
inductive ReconcileRule where
  | failDeadTasks
  | reapLeases
  | denyTimedOutReviews
  | resolveOpenRounds
deriving DecidableEq

def ReconcileRule.name : ReconcileRule -> String
  | failDeadTasks => "_fail_dead_tasks"
  | reapLeases => "_reap_leases"
  | denyTimedOutReviews => "_deny_timed_out_reviews"
  | resolveOpenRounds => "_resolve_open_rounds"

/-- What a pass is given from outside: the times, what the process probes of
its two sweeps find, the stamps of its denies, and the rules whose first query
meets a database error. -/
structure ReconcilePass where
  nowUnix : Unix
  failedAt : Iso
  taskProbe : LeaseRow -> Probe
  leaseProbe : LeaseRow -> Probe
  stamps : String -> String × Iso
  faults : ReconcileRule -> Bool

variable (pass : ReconcilePass) (s : ReconcileState γ)

def failDeadTasks : ReconcileState γ :=
  let swept := reclaimDeadRunning s.tasks s.store.leases pass.taskProbe
    "reconciler_dead_holder" pass.failedAt
  { s with
    tasks := swept.snd
    report := { s.report with failedTasks := s.report.failedTasks ++ swept.fst } }

def reapLeases : ReconcileState γ :=
  let swept := reapDeadHolders s.store.leases (s.gpus.rows.map GpuLeaseRow.taskId) pass.leaseProbe
  { s with
    store := { s.store with leases := swept.snd }
    report := { s.report with leasesReaped := swept.fst.length } }

variable (rule : ReconcileRule)

def logFailure (s : ReconcileState γ) : ReconcileState γ :=
  { s with
    report := { s.report with failures := s.report.failures ++ [rule.name] } }

/-- A rule whose database errors end it but not the pass. -/
def isolated (body : ReconcileState γ -> ReconcileState γ × Bool)
    (s : ReconcileState γ) : ReconcileState γ :=
  if pass.faults rule then logFailure rule s
  else if (body s).snd then logFailure rule (body s).fst
  else (body s).fst

/-- The rules before `_resolve_open_rounds`. -/
def sweep (pass : ReconcilePass) (s : ReconcileState γ) : ReconcileState γ :=
  isolated pass .denyTimedOutReviews (denyTimedOutReviews sql pass.nowUnix pass.stamps)
    (isolated pass .reapLeases (fun s => (reapLeases pass s, false))
      (isolated pass .failDeadTasks (fun s => (failDeadTasks pass s, false))
        { s with report := {} }))

/-- `Reconciler.run`: the stores after the pass, and whether an error that is
not the database's ended it. -/
def Reconciler.run (sql : SqlText) (pass : ReconcilePass)
    (s : ReconcileState γ) : ReconcileState γ × Bool :=
  let s := sweep sql pass s
  if pass.faults .resolveOpenRounds then
    (logFailure .resolveOpenRounds s, false)
  else resolveOpenRounds py pass.nowUnix s

/-!
## The rules before the rounds

A sweep fails running tasks, and takes rows and pending proposals away; it
gives a round nothing new to wait for.
-/

/-- `t` has the rounds and ended tasks of `s`, and no more of the rest. -/
structure Calms (s t : ReconcileState γ) : Prop where
  rounds : t.store.rounds = s.store.rounds
  leases : forall row, row ∈ t.store.leases -> row ∈ s.store.leases
  gpus : t.gpus = s.gpus
  proposals : forall pending, pending ∈ t.proposals -> pending ∈ s.proposals
  ended : forall row, row ∈ s.tasks -> row.state.isTerminal = true -> row ∈ t.tasks
  live : forall row, row ∈ t.tasks -> row.state.isTerminal = false -> row ∈ s.tasks
  known : forall row, row ∈ t.tasks -> exists old, old ∈ s.tasks ∧ old.taskId = row.taskId
  kept : forall row, row ∈ s.tasks -> exists new, new ∈ t.tasks ∧ new.taskId = row.taskId

theorem Calms.refl : Calms s s where
  rounds := rfl
  leases _ h := h
  gpus := rfl
  proposals _ h := h
  ended _ h _ := h
  live _ h _ := h
  known row h := ⟨row, h, rfl⟩
  kept row h := ⟨row, h, rfl⟩

variable {s t : ReconcileState γ}

theorem Calms.trans {u : ReconcileState γ} (hst : Calms s t) (htu : Calms t u) : Calms s u where
  rounds := htu.rounds.trans hst.rounds
  leases row h := hst.leases row (htu.leases row h)
  gpus := htu.gpus.trans hst.gpus
  proposals pending h := hst.proposals pending (htu.proposals pending h)
  ended row h hended := htu.ended row (hst.ended row h hended) hended
  live row h hlive := hst.live row (htu.live row h hlive) hlive
  known row h := by
    rcases htu.known row h with ⟨mid, hmid, hmidId⟩
    rcases hst.known mid hmid with ⟨old, hold, holdId⟩
    exact ⟨old, hold, holdId.trans hmidId⟩
  kept row h := by
    rcases hst.kept row h with ⟨mid, hmid, hmidId⟩
    rcases htu.kept mid hmid with ⟨new, hnew, hnewId⟩
    exact ⟨new, hnew, hnewId.trans hmidId⟩

theorem Calms.gone (h : Calms s t) {taskId : String}
    (hgone : s.tasks.find? taskId = none) : t.tasks.find? taskId = none := by
  rw [Table.find?_eq_none] at hgone ⊢
  intro row hrow hid
  rcases h.known row hrow with ⟨old, hold, holdId⟩
  exact hgone old hold (holdId.trans hid)

section

variable (s : ReconcileState γ)

theorem calms_report (report : ReconcileReport) : Calms s { s with report := report } where
  rounds := rfl
  leases _ h := h
  gpus := rfl
  proposals _ h := h
  ended _ h _ := h
  live _ h _ := h
  known row h := ⟨row, h, rfl⟩
  kept row h := ⟨row, h, rfl⟩

theorem calms_failDeadTasks : Calms s (failDeadTasks pass s) where
  rounds := rfl
  leases _ h := h
  gpus := rfl
  proposals _ h := h
  ended row hrow hended := by
    apply mem_reclaimDeadRunning.mpr
    apply Or.inl
    refine ⟨hrow, Bool.eq_false_iff.mpr ?_⟩
    intro hreclaims
    rw [(reclaims_eq_true.mp hreclaims).left] at hended
    cases hended
  live row hrow hlive := by
    rcases mem_reclaimDeadRunning.mp hrow with ⟨hold, _⟩ | ⟨old, _, _, rfl⟩
    · exact hold
    · cases hlive
  known row hrow := by
    rcases mem_reclaimDeadRunning.mp hrow with ⟨hold, _⟩ | ⟨old, hold, _, rfl⟩
    · exact ⟨row, hold, rfl⟩
    · exact ⟨old, hold, rfl⟩
  kept row hrow := by
    cases hreclaims : reclaims s.store.leases pass.taskProbe row with
    | true =>
      exact ⟨_, mem_reclaimDeadRunning.mpr (Or.inr ⟨row, hrow, hreclaims, rfl⟩), rfl⟩
    | false =>
      exact ⟨row, mem_reclaimDeadRunning.mpr (Or.inl ⟨hrow, hreclaims⟩), rfl⟩

theorem calms_reapLeases : Calms s (reapLeases pass s) where
  rounds := rfl
  leases _ h := (mem_reapDeadHolders.mp h).left
  gpus := rfl
  proposals _ h := h
  ended _ h _ := h
  live _ h _ := h
  known row h := ⟨row, h, rfl⟩
  kept row h := ⟨row, h, rfl⟩

end

theorem calms_authorTimeoutDeny {proposal : Event} {age : Rat}
    {stamp : String × Iso} (h : authorTimeoutDeny proposal age stamp s = .ok t) : Calms s t := by
  unfold authorTimeoutDeny at h
  split at h
  · cases h
    exact Calms.refl s
  · split at h
    · cases h
    · cases h
      exact
        { rounds := rfl
          leases := fun _ h => h
          gpus := rfl
          proposals := fun _ h => (List.mem_filter.mp h).left
          ended := fun _ h _ => h
          live := fun _ h _ => h
          known := fun row h => ⟨row, h, rfl⟩
          kept := fun row h => ⟨row, h, rfl⟩ }

theorem calms_denyEach (waiting : List Event) (s : ReconcileState γ) :
    Calms s (denyEach nowUnix stamps waiting s).fst := by
  induction waiting generalizing s with
  | nil => exact Calms.refl s
  | cons proposal rest ih =>
    unfold denyEach
    split
    · exact ih s
    · split
      · exact Calms.refl s
      · rename_i next hdeny
        exact (calms_authorTimeoutDeny hdeny).trans (ih next)

theorem calms_isolated {pass : ReconcilePass} {rule : ReconcileRule}
    {body : ReconcileState γ -> ReconcileState γ × Bool}
    (h : forall s, Calms s (body s).fst) (s : ReconcileState γ) :
    Calms s (isolated pass rule body s) := by
  unfold isolated
  split
  · exact calms_report s _
  · split
    · exact (h s).trans (calms_report _ _)
    · exact h s

theorem calms_sweep (pass : ReconcilePass) (s : ReconcileState γ) : Calms s (sweep sql pass s) := by
  refine Calms.trans ?_ (calms_isolated ?_ _)
  · refine Calms.trans ?_ (calms_isolated (fun s => ?_) _)
    · refine Calms.trans (calms_report s {}) (calms_isolated (fun s => ?_) _)
      exact calms_failDeadTasks pass s
    · exact calms_reapLeases pass s
  · intro s
    exact calms_denyEach pass.nowUnix pass.stamps _ s

/-!
## One round of the resolving rule
-/

/-- `t` differs from `s` at most in one round and its lane. -/
structure Touches (round : Round) (s t : ReconcileState γ) : Prop where
  tasks : t.tasks = s.tasks
  gpus : t.gpus = s.gpus
  proposals : t.proposals = s.proposals
  leases : forall row, row ∈ t.store.leases -> row.lane ≠ .bringupRound -> row ∈ s.store.leases
  rounds : forall other, other.roundId ≠ round.roundId ->
    (other ∈ t.store.rounds <-> other ∈ s.store.rounds)

theorem Touches.refl (round : Round) (s : ReconcileState γ) : Touches round s s where
  tasks := rfl
  gpus := rfl
  proposals := rfl
  leases _ h _ := h
  rounds _ _ := Iff.rfl

theorem mem_placeLane_of_other {leases : Leases} {after : Round}
    {row : LeaseRow} (h : row ∈ placeLane leases after)
    (hlane : row.lane ≠ .bringupRound) : row ∈ leases := by
  unfold placeLane at h
  split at h
  · rcases mem_holdRoundLane.mp h with ⟨hold, _⟩ | ⟨old, _, hkey, rfl⟩ | ⟨rfl, _⟩
    · exact hold
    · exact absurd (congrArg Prod.fst hkey) hlane
    · exact absurd rfl hlane
  · exact (mem_dropRoundLane.mp h).left

theorem touches_swap (s : ReconcileState γ) (round : Round) (move : RoundMove)
    (request : RoundRequest) (report : ReconcileReport) :
    Touches round s
      { s with store := (swap s.store round move request).snd, report := report } := by
  rcases swap_cases s.store round move request with
    ⟨current, hcurrent, hnames, hafter⟩ | ⟨event, _, hafter⟩
  · rw [hafter]
    refine ⟨rfl, rfl, rfl, ?_, ?_⟩
    · intro row hrow hlane
      exact mem_placeLane_of_other hrow hlane
    · intro other hother
      refine (mem_swapped_rounds hcurrent).trans ?_
      rw [hnames.roundId]
      constructor
      · intro h
        rcases h with rfl | hold
        · rw [RoundMove.advance_roundId, hnames.roundId] at hother
          exact absurd rfl hother
        · exact hold.left
      · intro h
        exact Or.inr ⟨h, hother⟩
  · rw [hafter]
    exact ⟨rfl, rfl, rfl, fun _ h _ => h, fun _ _ => Iff.rfl⟩

theorem expire_eq (s : ReconcileState γ) (round : Round) (why : String) :
    exists report, expire nowUnix s round why = { s with
        store := (swap s.store round (.settle .expiredReaped) (expireRequest nowUnix round why)).snd
        report := report } :=
  ⟨_, rfl⟩

theorem touches_advanceOrExpire {py : Conversions γ} {nowUnix : Unix}
    {round : Round} (h : advanceOrExpire py nowUnix s round = some t) : Touches round s t := by
  revert h
  fun_cases advanceOrExpire py nowUnix s round with (intro h; cases h)
  | case4 => exact touches_swap s round _ _ _
  | case8 =>
    rcases expire_eq nowUnix s round "holder_terminal_without_result" with ⟨report, heq⟩
    rw [heq]
    exact touches_swap s round _ _ report
  | _ => exact Touches.refl round s

end

end Bringup
end Hyperloom
