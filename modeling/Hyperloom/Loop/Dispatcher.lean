import Hyperloom.Library.Machine
import Hyperloom.Loop.SubAgentRunner

/-!
# The dispatcher

The pump spawns queued tasks, each under an execution of its own that runs
`run_task` and, when that returns, queues its completion; a later pump takes
the completions off the queue and books them.  An execution whose `run_task`
raises queues nothing.
-/

namespace Hyperloom
namespace Loop

open Library Storage Bus State

/-!
## Executions
-/

def selfSettlingKinds : List String :=
  ["targeted_build", "kernel_agent"]

/-- Where a spawned execution stands: its dispatch evidence is to be written,
was refused, `run_task` runs, its completion has been handed over, or it never
ran. -/
inductive Stage where
  | starting (lease : Option Lease)
  | refusing (lease : Option Lease)
  | refusingLanes (lease : Lease)
  | running (x : Exec)
  | completed (x : Exec) (outcome : SubAgentResult)
  | refused

structure Execution where
  task : TaskRow
  stage : Stage

namespace Execution

variable (e : Execution)

def selfSettling : Bool :=
  decide (e.task.kind ∈ selfSettlingKinds)

def exec? : Option Exec :=
  match e.stage with
  | .running x => some x
  | .completed x _ => some x
  | _ => none

def completion? : Option SubAgentResult :=
  match e.stage with
  | .completed _ outcome => if e.selfSettling then none else some outcome
  | _ => none

/-- The execution ended by raising, or was refused before it ran. -/
def raised : Bool :=
  match e.stage with
  | .running x => x.raises
  | .refused => true
  | _ => false

/-- The execution has handed its completion over or will never have one. -/
def settled : Bool :=
  match e.stage with
  | .completed _ _ => true
  | _ => e.raised

end Execution

/-- The tables, the executions in the order they were spawned, the completion
queue and the calls of `reap_dispatched_task`, each with the execution it comes
from, and the keys of `_inflight_actions`. -/
structure DispatchState where
  db : Db
  execs : List Execution
  queue : List (Nat × SubAgentResult)
  booked : List (Nat × SubAgentResult)
  inflight : List String

inductive DispatchOp where
  | spawn (task : TaskRow) (acquirer : Acquirer)
  | cancelHandle (i : Nat)
  | recordEvidence (i : Nat) (recorded : Bool)
  | refuse (i : Nat) (raised : Bool)
  | refuseLanes (i : Nat) (db : DbAnswer)
  | exec (i : Nat) (answer : Answer)
  | complete (i : Nat)
  | book
  | other (tasks : Tasks) (leases : Leases)

namespace DispatchState

variable (s : DispatchState)

def setStage (i : Nat) (task : TaskRow) (stage : Stage) : DispatchState :=
  { s with execs := s.execs.set i ⟨task, stage⟩ }

def setLeases (leases : Leases) : DispatchState :=
  { s with db := { s.db with leases := leases } }

def register (task : TaskRow) (lease : Option Lease) : DispatchState :=
  { s with execs := s.execs ++ [⟨task, .starting lease⟩], inflight := task.taskId :: s.inflight }

def unregister (task : TaskRow) : DispatchState :=
  { s with inflight := s.inflight.filter (fun taskId => taskId ≠ task.taskId) }

/-- `_queue_completion`, which self-settling kinds do without. -/
def queueCompletion (i : Nat) (task : TaskRow) (outcome : SubAgentResult) : DispatchState :=
  if task.kind ∈ selfSettlingKinds then s
  else { s with queue := s.queue ++ [(i, outcome)] }

end DispatchState

/-!
## Steps
-/

variable (capacities : Capacities)

def spawnTask (s : DispatchState) (task : TaskRow) (acquirer : Acquirer) : Option DispatchState :=
  if task.taskId ∈ s.inflight then none
  else if task.requiresLanes = [] then some (s.register task none)
  else
    match acquireMany capacities s.db.leases (acquireRequest task) acquirer with
    | .ok (some lease, leases) =>
      some ((s.setLeases leases).register task (some lease))
    | _ => some s

variable (s : DispatchState)

def stageStep (i : Nat) (task : TaskRow) : Stage -> DispatchOp -> Option DispatchState
  | .starting _, .cancelHandle _ => some (s.setStage i task .refused)
  | .starting lease, .recordEvidence _ true =>
    some (s.setStage i task (.running { task := task, lease := lease }))
  | .starting lease, .recordEvidence _ false =>
    some (s.setStage i task (.refusing lease))
  -- the handle stays registered when giving back what it held raises
  | .refusing _, .refuse _ true => some (s.setStage i task .refused)
  | .refusing none, .refuse _ false =>
    some ((s.setStage i task .refused).unregister task)
  | .refusing (some lease), .refuse _ false =>
    some (s.setStage i task (.refusingLanes lease))
  | .refusingLanes lease, .refuseLanes _ .done =>
    some (((s.setLeases (release s.db.leases lease)).setStage i task .refused).unregister task)
  | .refusingLanes _, .refuseLanes _ (.before _) =>
    some (s.setStage i task .refused)
  | .refusingLanes lease, .refuseLanes _ (.after _) =>
    some ((s.setLeases (release s.db.leases lease)).setStage i task .refused)
  | .running x, .exec _ answer =>
    (runStep s.db x answer).map (fun next =>
      { s with db := next.fst }.setStage i task (.running next.snd))
  | .running x, .complete _ =>
    match x.pc with
    | .returned outcome =>
      some (((s.setStage i task (.completed x outcome)).queueCompletion i task
        outcome).unregister task)
    | _ => none
  | _, _ => none

/-- What other writers may do to the tasks: anything but queue a task again that
`run_task` was called for. -/
def QueuesNoneAgain (tasks : Tasks) : Prop :=
  forall x, x ∈ s.execs.filterMap Execution.exec? ->
    InQueue tasks x.task.taskId -> InQueue s.db.tasks x.task.taskId

instance (tasks : Tasks) : Decidable (QueuesNoneAgain s tasks) :=
  inferInstanceAs (Decidable (forall x, x ∈ s.execs.filterMap Execution.exec? -> _))

/-- `_drain_completions` takes a completion off the queue and books it. -/
def bookNext : Option DispatchState :=
  match s.queue with
  | [] => none
  | entry :: rest => some { s with queue := rest, booked := s.booked ++ [entry] }

def dispatchStep (s : DispatchState) (op : DispatchOp) : Option DispatchState :=
  match op with
  | .spawn task acquirer => spawnTask capacities s task acquirer
  | .book => bookNext s
  | .other tasks leases =>
    if QueuesNoneAgain s tasks then some { s with db := ⟨tasks, leases⟩ }
    else none
  | .cancelHandle i | .recordEvidence i _ | .refuse i _ | .refuseLanes i _
  | .exec i _ | .complete i =>
    match s.execs[i]? with
    | none => none
    | some e => stageStep s i e.task e.stage op

def dispatchMachine : Machine DispatchState DispatchOp where
  init s := s.execs = [] ∧ s.queue = [] ∧ s.booked = []
  step := dispatchStep capacities

/-!
## What a step does
-/

/-- An execution whose `run_task` has not been called. -/
def Stage.Waiting : Stage -> Prop
  | .starting _ => True
  | .refusing _ => True
  | .refusingLanes _ => True
  | _ => False

inductive StageMoves (task : TaskRow) : Stage -> Stage -> Prop where
  | begun (lease : Option Lease) :
    StageMoves task (.starting lease) (.running { task := task, lease := lease })
  | waits (old new : Stage) : old.Waiting -> new.Waiting -> StageMoves task old new
  | refused (old : Stage) : old.Waiting -> StageMoves task old .refused

variable {e : Execution} {new : Stage}

theorem StageMoves.not_settled (h : StageMoves e.task e.stage new) : e.settled = false := by
  have hwaits : e.stage.Waiting -> e.settled = false := by
    intro hwaiting
    unfold Execution.settled Execution.raised
    cases hstage : e.stage with
    | running x | completed x outcome | refused =>
      rw [hstage] at hwaiting
      exact absurd hwaiting id
    | _ => rfl
  generalize hold : e.stage = old at h
  cases h with
  | begun lease => exact hwaits (by rw [hold]; exact trivial)
  | waits old new hwaiting _ | refused old hwaiting => exact hwaits (by rw [hold]; exact hwaiting)

/-- A step leaves the rest of the state as it is. -/
structure SetsStage (s t : DispatchState) (i : Nat) (e : Execution) (stage : Stage) : Prop where
  found : s.execs[i]? = some e
  execs : t.execs = s.execs.set i ⟨e.task, stage⟩
  queue : t.queue = s.queue
  booked : t.booked = s.booked

inductive DispatchEffect (op : DispatchOp) (s t : DispatchState) : Prop where
  | stayed : t = s -> DispatchEffect op s t
  | spawned (task : TaskRow) (acquirer : Acquirer) (lease : Option Lease) :
    op = .spawn task acquirer -> t.db.tasks = s.db.tasks ->
    t.execs = s.execs ++ [⟨task, .starting lease⟩] ->
    t.queue = s.queue -> t.booked = s.booked -> DispatchEffect op s t
  | moved (i : Nat) (e : Execution) (stage : Stage) :
    SetsStage s t i e stage -> StageMoves e.task e.stage stage ->
    t.db.tasks = s.db.tasks -> DispatchEffect op s t
  | ran (i : Nat) (e : Execution) (x x' : Exec) (answer : Answer) :
    SetsStage s t i e (.running x') -> e.stage = .running x ->
    RunEffect s.db x answer t.db x' -> DispatchEffect op s t
  | completed (i : Nat) (e : Execution) (x : Exec) (outcome : SubAgentResult) :
    s.execs[i]? = some e -> e.stage = .running x -> x.pc = .returned outcome -> t.db = s.db ->
    t.execs = s.execs.set i ⟨e.task, .completed x outcome⟩ ->
    t.queue = s.queue ++ (if e.selfSettling then [] else [(i, outcome)]) ->
    t.booked = s.booked -> DispatchEffect op s t
  | booked (entry : Nat × SubAgentResult) :
    t.db = s.db -> t.execs = s.execs -> s.queue = entry :: t.queue ->
    t.booked = s.booked ++ [entry] -> DispatchEffect op s t
  | external : QueuesNoneAgain s t.db.tasks -> t.execs = s.execs ->
    t.queue = s.queue -> t.booked = s.booked -> DispatchEffect op s t

variable {s t : DispatchState} {capacities : Capacities} {task : TaskRow}

theorem spawnTask_effect {acquirer : Acquirer} (h : spawnTask capacities s task acquirer = some t) :
    DispatchEffect (.spawn task acquirer) s t := by
  revert h
  fun_cases spawnTask capacities s task acquirer with (intro h; cases h)
  | case2 => exact DispatchEffect.spawned task acquirer none rfl rfl rfl rfl rfl
  | case3 _ _ lease =>
    exact DispatchEffect.spawned task acquirer (some lease) rfl rfl rfl rfl rfl
  | case4 => exact DispatchEffect.stayed rfl

theorem queueCompletion_frame (s : DispatchState) (i : Nat) (task : TaskRow)
    (outcome : SubAgentResult) : (s.queueCompletion i task outcome).db = s.db ∧
    (s.queueCompletion i task outcome).execs = s.execs ∧
    (s.queueCompletion i task outcome).booked = s.booked ∧
    (s.queueCompletion i task outcome).queue = s.queue ++
      (if decide (task.kind ∈ selfSettlingKinds) then [] else [(i, outcome)]) := by
  unfold DispatchState.queueCompletion
  split
  · rename_i hself
    simp [hself]
  · rename_i hself
    simp [hself]

variable {i : Nat} {op : DispatchOp}

theorem stageStep_effect (hfound : s.execs[i]? = some e)
    (h : stageStep s i e.task e.stage op = some t) : DispatchEffect op s t := by
  have hmoved : forall {old new : Stage} {t : DispatchState}, e.stage = old ->
      StageMoves e.task old new -> SetsStage s t i e new -> t.db.tasks = s.db.tasks ->
      DispatchEffect op s t := by
    intro old new t hstage hmoves hsets htasks
    exact .moved i e new hsets (hstage ▸ hmoves) htasks
  generalize hstage : e.stage = stage at h
  revert h
  fun_cases stageStep s i e.task stage op with (intro h; try cases h)
  | case2 lease => exact hmoved hstage (.begun lease) ⟨hfound, rfl, rfl, rfl⟩ rfl
  | case3 lease =>
    exact hmoved hstage (.waits _ (.refusing lease) trivial trivial) ⟨hfound, rfl, rfl, rfl⟩ rfl
  | case6 lease =>
    exact hmoved hstage (.waits _ (.refusingLanes lease) trivial trivial)
      ⟨hfound, rfl, rfl, rfl⟩ rfl
  | case10 x _ answer =>
    rcases Option.map_eq_some_iff.mp h with ⟨next, hnext, rfl⟩
    exact DispatchEffect.ran i e x next.snd answer ⟨hfound, rfl, rfl, rfl⟩ hstage
      (runStep_effect hnext)
  | case11 x _ outcome hpc =>
    rcases queueCompletion_frame (s.setStage i e.task (.completed x outcome)) i
      e.task outcome with ⟨hdb, hexecs, hbooked, hqueue⟩
    exact DispatchEffect.completed i e x outcome hfound hstage hpc hdb hexecs hqueue hbooked
  | _ => exact hmoved hstage (.refused _ trivial) ⟨hfound, rfl, rfl, rfl⟩ rfl

theorem dispatchStep_effect (h : dispatchStep capacities s op = some t) :
    DispatchEffect op s t := by
  have hstage : forall i : Nat, (match s.execs[i]? with
      | none => none
      | some e => stageStep s i e.task e.stage op) = some t -> DispatchEffect op s t := by
    intro i hstep
    cases hfound : s.execs[i]? with
    | none =>
      rw [hfound] at hstep
      cases hstep
    | some e =>
      rw [hfound] at hstep
      exact stageStep_effect hfound hstep
  cases op with
  | spawn task acquirer => exact spawnTask_effect h
  | book =>
    have hbook : bookNext s = some t := h
    unfold bookNext at hbook
    split at hbook
    · cases hbook
    rename_i entry rest hqueue
    cases hbook
    exact DispatchEffect.booked entry rfl rfl hqueue rfl
  | other tasks leases =>
    rcases some_of_when h with ⟨hnone, rfl⟩
    exact DispatchEffect.external hnone rfl rfl rfl
  | cancelHandle i
  | recordEvidence i recorded
  | refuse i raised
  | refuseLanes i db
  | exec i answer
  | complete i => exact hstage i h

theorem settled_stays (heffect : DispatchEffect op s t)
    (hop : forall task acquirer, op ≠ .spawn task acquirer) {e' : Execution}
    (he' : t.execs[i]? = some e') :
    exists e, s.execs[i]? = some e ∧ (e.settled = true -> e' = e) := by
  have hset : forall {j : Nat} {e new : Execution}, s.execs[j]? = some e ->
      t.execs = s.execs.set j new -> e.settled = false ->
      exists e, s.execs[i]? = some e ∧ (e.settled = true -> e' = e) := by
    intro j e new hfound hexecs hunsettled
    rw [hexecs] at he'
    by_cases hji : j = i
    · rw [hji] at hfound
      refine ⟨e, hfound, ?_⟩
      intro hsettled
      rw [hunsettled] at hsettled
      cases hsettled
    · rw [List.getElem?_set_ne hji] at he'
      exact ⟨e', he', fun _ => rfl⟩
  have hsame : t.execs = s.execs ->
      exists e, s.execs[i]? = some e ∧ (e.settled = true -> e' = e) := by
    intro hexecs
    rw [hexecs] at he'
    exact ⟨e', he', fun _ => rfl⟩
  cases heffect with
  | stayed heq => exact hsame (by rw [heq])
  | spawned task acquirer lease hspawn _ _ _ _ =>
    exact absurd hspawn (hop task acquirer)
  | moved j e stage hsets hmoves _ =>
    exact hset hsets.found hsets.execs hmoves.not_settled
  | ran j e x x' answer hsets hstage hrun =>
    apply hset hsets.found hsets.execs
    unfold Execution.settled Execution.raised
    rw [hstage]
    exact hrun.not_raises
  | completed j e x outcome hfound hstage hpc _ hexecs _ _ =>
    apply hset hfound hexecs
    unfold Execution.settled Execution.raised
    rw [hstage]
    show x.raises = false
    unfold Exec.raises
    rw [hpc]
  | booked entry _ hexecs _ _ | external _ hexecs _ _ => exact hsame hexecs

/-!
## Every completion is booked once

The completions booked and those still queued are together those of the
executions that have handed one over, each once.
-/

namespace DispatchState

def readAt {value : Type} (s : DispatchState) (read : Execution -> Option value)
    (i : Nat) : Option value :=
  (s.execs[i]?).bind read

def completionOf (s : DispatchState) (i : Nat) : Option SubAgentResult :=
  s.readAt Execution.completion? i

def execOf (s : DispatchState) (i : Nat) : Option Exec := s.readAt Execution.exec? i

variable {value : Type}

section

variable (read : Execution -> Option value)

theorem readAt_of_found {s : DispatchState}
    {i : Nat} {e : Execution} (hfound : s.execs[i]? = some e) : s.readAt read i = read e := by
  unfold readAt
  rw [hfound]
  rfl

theorem readAt_congr {s t : DispatchState}
    (hexecs : t.execs = s.execs) (i : Nat) : t.readAt read i = s.readAt read i := by
  unfold readAt
  rw [hexecs]

theorem readAt_set {s : DispatchState} {execs : List Execution} {i : Nat} {e new : Execution}
    (hfound : s.execs[i]? = some e) (hexecs : execs = s.execs.set i new) (j : Nat) :
    (execs[j]?).bind read = if i = j then read new else s.readAt read j := by
  rw [hexecs, List.getElem?_set]
  have hlength := (List.getElem?_eq_some_iff.mp hfound).choose
  by_cases hij : i = j
  · rw [if_pos hij, if_pos hij, if_pos hlength]
    rfl
  · rw [if_neg hij, if_neg hij]
    rfl

theorem readAt_append {s t : DispatchState} {new : Execution} (hexecs : t.execs = s.execs ++ [new])
    (hnew : read new = none) (j : Nat) : t.readAt read j = s.readAt read j := by
  unfold readAt
  rw [hexecs]
  rcases Nat.lt_or_ge j s.execs.length with hold | hlast
  · rw [List.getElem?_append_left hold]
  · rw [List.getElem?_append_right hlast, List.getElem?_eq_none hlast]
    cases j - s.execs.length with
    | zero => exact hnew
    | succ k => rfl

end

end DispatchState

structure BookedOnce (s : DispatchState) : Prop where
  nodup : ((s.booked ++ s.queue).map Prod.fst).Nodup
  mem_iff : forall i outcome, (i, outcome) ∈ s.booked ++ s.queue <-> s.completionOf i = some outcome

theorem BookedOnce.congr (h : BookedOnce s) (hlist : t.booked ++ t.queue = s.booked ++ s.queue)
    (hcompletion : forall i, t.completionOf i = s.completionOf i) : BookedOnce t := by
  constructor
  · rw [hlist]
    exact h.nodup
  · intro i outcome
    rw [hlist, hcompletion]
    exact h.mem_iff i outcome

theorem completionOf_setsStage {stage : Stage} (h : SetsStage s t i e stage)
    (hold : e.completion? = none)
    (hnew : (⟨e.task, stage⟩ : Execution).completion? = none) (j : Nat) :
    t.completionOf j = s.completionOf j := by
  have hset := DispatchState.readAt_set Execution.completion? h.found h.execs j
  by_cases hij : i = j
  · rw [if_pos hij, hnew] at hset
    have hbefore : s.completionOf j = none := by
      rw [← hij]
      exact (DispatchState.readAt_of_found _ h.found).trans hold
    exact hset.trans hbefore.symm
  · rw [if_neg hij] at hset
    exact hset

theorem StageMoves.completion?_eq_none {old : Stage} (h : StageMoves task old new) :
    (⟨task, old⟩ : Execution).completion? = none ∧
    (⟨task, new⟩ : Execution).completion? = none := by
  have hwaits : forall stage : Stage, stage.Waiting ->
      (⟨task, stage⟩ : Execution).completion? = none := by
    intro stage hwaiting
    cases stage with
    | completed x outcome => exact absurd hwaiting id
    | _ => rfl
  cases h with
  | begun lease => exact ⟨rfl, rfl⟩
  | waits old new hold hnew => exact ⟨hwaits old hold, hwaits new hnew⟩
  | refused old hold => exact ⟨hwaits old hold, rfl⟩

variable {outcome : SubAgentResult}

theorem BookedOnce.push (h : BookedOnce s) (hbefore : s.completionOf i = none)
    (hlist : t.booked ++ t.queue = (s.booked ++ s.queue) ++ [(i, outcome)])
    (hcompletion : forall j, t.completionOf j =
      if i = j then some outcome else s.completionOf j) : BookedOnce t := by
  constructor
  · rw [hlist, List.map_append, List.nodup_append]
    refine ⟨h.nodup, List.nodup_singleton _, ?_⟩
    intro a ha b hb hab
    rcases List.mem_map.mp ha with ⟨entry, hentry, rfl⟩
    have hi : entry.fst = i := by
      rw [hab]
      exact List.mem_singleton.mp hb
    have hsome := (h.mem_iff entry.fst entry.snd).mp hentry
    rw [hi, hbefore] at hsome
    cases hsome
  · intro j result
    rw [hlist, List.mem_append, List.mem_singleton, h.mem_iff, hcompletion j]
    by_cases hij : i = j
    · rw [if_pos hij, ← hij, hbefore]
      constructor
      · intro hcase
        rcases hcase with hnone | hpair
        · cases hnone
        · cases hpair
          rfl
      · intro hsome
        cases hsome
        exact Or.inr rfl
    · rw [if_neg hij]
      constructor
      · intro hcase
        rcases hcase with hold | hpair
        · exact hold
        · cases hpair
          exact absurd rfl hij
      · intro hold
        exact Or.inl hold

variable {x : Exec}

theorem Execution.completion?_of_running (h : e.stage = .running x) : e.completion? = none := by
  unfold Execution.completion?
  rw [h]

theorem bookedOnce_completed (h : BookedOnce s) (hfound : s.execs[i]? = some e)
    (hstage : e.stage = .running x)
    (hexecs : t.execs = s.execs.set i ⟨e.task, .completed x outcome⟩)
    (hqueue : t.queue = s.queue ++ (if e.selfSettling then [] else [(i, outcome)]))
    (hbooked : t.booked = s.booked) : BookedOnce t := by
  have hset := DispatchState.readAt_set Execution.completion? hfound hexecs
  have hbefore : s.completionOf i = none :=
    (DispatchState.readAt_of_found _ hfound).trans (Execution.completion?_of_running hstage)
  cases hself : e.selfSettling with
  | true =>
    rw [hself, if_pos rfl, List.append_nil] at hqueue
    apply h.congr (by rw [hqueue, hbooked])
    intro j
    refine (hset j).trans ?_
    split
    · rename_i hij
      rw [← hij, hbefore]
      exact if_pos hself
    · rfl
  | false =>
    rw [hself, if_neg Bool.false_ne_true] at hqueue
    have hnew : (⟨e.task, .completed x outcome⟩ : Execution).completion? =
        some outcome := if_neg (by rw [← Bool.not_eq_true] at hself; exact hself)
    apply h.push hbefore
    · rw [hqueue, hbooked, List.append_assoc]
    · intro j
      rw [← hnew]
      exact hset j

theorem bookedOnce_step (h : BookedOnce s) (heffect : DispatchEffect op s t) : BookedOnce t := by
  cases heffect with
  | stayed hsame =>
    rw [hsame]
    exact h
  | spawned task acquirer lease _ _ hexecs hqueue hbooked =>
    exact h.congr (by rw [hqueue, hbooked]) (DispatchState.readAt_append _ hexecs rfl)
  | moved i e stage hsets hmoves _ =>
    exact h.congr (by rw [hsets.queue, hsets.booked])
      (completionOf_setsStage hsets hmoves.completion?_eq_none.left
        hmoves.completion?_eq_none.right)
  | ran i e x x' answer hsets hstage _ =>
    exact h.congr (by rw [hsets.queue, hsets.booked])
      (completionOf_setsStage hsets (Execution.completion?_of_running hstage) rfl)
  | completed i e x outcome hfound hstage _ _ hexecs hqueue hbooked =>
    exact bookedOnce_completed h hfound hstage hexecs hqueue hbooked
  | booked entry _ hexecs hqueue hbooked =>
    apply h.congr
    · rw [hbooked, hqueue, List.append_assoc]
      rfl
    · exact DispatchState.readAt_congr _ hexecs
  | external _ hexecs hqueue hbooked =>
    exact h.congr (by rw [hqueue, hbooked]) (DispatchState.readAt_congr _ hexecs)

/-!
## What the executions of all tasks keep
-/

theorem execOf_setsStage {stage : Stage} (h : SetsStage s t i e stage) (j : Nat) :
    t.execOf j = if i = j then (⟨e.task, stage⟩ : Execution).exec? else s.execOf j :=
  DispatchState.readAt_set Execution.exec? h.found h.execs j

theorem StageMoves.exec?_cases {old : Stage} (h : StageMoves task old new) :
    (⟨task, new⟩ : Execution).exec? = none ∨
    exists lease, (⟨task, new⟩ : Execution).exec? = some { task := task, lease := lease } := by
  cases h with
  | begun lease => exact Or.inr ⟨lease, rfl⟩
  | waits old new _ hnew =>
    cases new with
    | running x | completed x outcome => exact absurd hnew id
    | _ => exact Or.inl rfl
  | refused old _ => exact Or.inl rfl

theorem execOf_of_running (hfound : s.execs[i]? = some e)
    (hstage : e.stage = .running x) : s.execOf i = some x := by
  refine (DispatchState.readAt_of_found _ hfound).trans ?_
  unfold Execution.exec?
  rw [hstage]

theorem mem_exec?_of_execOf (h : s.execOf i = some x) : x ∈ s.execs.filterMap Execution.exec? := by
  rcases Option.bind_eq_some_iff.mp h with ⟨e, he, hx⟩
  exact List.mem_filterMap.mpr ⟨e, List.mem_of_getElem? he, hx⟩

theorem execOf_cases (heffect : DispatchEffect op s t) :
    (exists i x x' answer, s.execOf i = some x ∧ t.execOf i = some x' ∧
      RunEffect s.db x answer t.db x' ∧ forall j, j ≠ i -> t.execOf j = s.execOf j) ∨
    (QueuesNoneAgain s t.db.tasks ∧ forall j x, t.execOf j = some x -> s.execOf j = some x ∨
        exists task lease, x = { task := task, lease := lease }) := by
  have hframe : t.db.tasks = s.db.tasks -> QueuesNoneAgain s t.db.tasks := by
    intro htasks x _ hqueued
    rw [← htasks]
    exact hqueued
  cases heffect with
  | stayed heq =>
    right
    refine ⟨hframe (by rw [heq]), ?_⟩
    rw [heq]
    exact fun j x hx => Or.inl hx
  | spawned task acquirer lease _ htasks hexecs _ _ =>
    right
    refine ⟨hframe htasks, ?_⟩
    intro j x hx
    exact Or.inl ((DispatchState.readAt_append _ hexecs rfl j).symm.trans hx)
  | moved i e stage hsets hmoves htasks =>
    right
    refine ⟨hframe htasks, ?_⟩
    intro j x hx
    rw [execOf_setsStage hsets] at hx
    by_cases hij : i = j
    · rw [if_pos hij] at hx
      rcases hmoves.exec?_cases with hnone | ⟨lease, hsome⟩
      · rw [hnone] at hx
        cases hx
      · rw [hsome] at hx
        cases hx
        exact Or.inr ⟨e.task, lease, rfl⟩
    · rw [if_neg hij] at hx
      exact Or.inl hx
  | ran i e x x' answer hsets hstage hrun =>
    left
    refine ⟨i, x, x', answer, execOf_of_running hsets.found hstage, ?_, hrun, ?_⟩
    · rw [execOf_setsStage hsets, if_pos rfl]
      rfl
    · intro j hji
      rw [execOf_setsStage hsets, if_neg (fun hij => hji hij.symm)]
  | completed i e x outcome hfound hstage _ hdb hexecs _ _ =>
    right
    refine ⟨hframe (by rw [hdb]), ?_⟩
    intro j y hy
    have hset := DispatchState.readAt_set Execution.exec? hfound hexecs j
    by_cases hij : i = j
    · left
      rw [if_pos hij] at hset
      have hbefore : s.execOf j = some x := by
        rw [← hij]
        exact execOf_of_running hfound hstage
      exact hbefore.trans (hset.symm.trans hy)
    · rw [if_neg hij] at hset
      exact Or.inl (hset.symm.trans hy)
  | booked entry hdb hexecs _ _ =>
    right
    refine ⟨hframe (by rw [hdb]), ?_⟩
    intro j x hx
    exact Or.inl ((DispatchState.readAt_congr _ hexecs j).symm.trans hx)
  | external hnone hexecs _ _ =>
    right
    refine ⟨hnone, ?_⟩
    intro j x hx
    exact Or.inl ((DispatchState.readAt_congr _ hexecs j).symm.trans hx)

structure BooksOnce (s : DispatchState) : Prop where
  bookedOnce : BookedOnce s
  claimedOnce : ClaimedOnce s.db.tasks s.execOf
  afterWrite : forall i x, s.execOf i = some x -> x.wrote = true -> AfterWrite x.pc

theorem booksOnce_step (h : BooksOnce s) (heffect : DispatchEffect op s t) : BooksOnce t := by
  refine ⟨bookedOnce_step h.bookedOnce heffect, ?_, ?_⟩
  · rcases execOf_cases heffect with hrun | ⟨hnone, hbegun⟩
    · rcases hrun with ⟨i, x, x', answer, hx, hx', hrun, hothers⟩
      exact h.claimedOnce.step hx hrun hx' hothers
    · apply h.claimedOnce.of_old (fun _ x hx => hnone x (mem_exec?_of_execOf hx))
      intro j x hx hclaimed
      rcases hbegun j x hx with hold | ⟨task, lease, rfl⟩
      · exact ⟨x, hold, hclaimed, rfl⟩
      · cases hclaimed
  · intro j y hy hwrote
    rcases execOf_cases heffect with hrun | ⟨_, hbegun⟩
    · rcases hrun with ⟨i, x, x', answer, hx, hx', hrun, hothers⟩
      by_cases hji : j = i
      · rw [hji, hx'] at hy
        cases hy
        exact afterWrite_step (h.afterWrite i x hx) hrun hwrote
      · exact h.afterWrite j y ((hothers j hji).symm.trans hy) hwrote
    · rcases hbegun j y hy with hold | ⟨task, lease, rfl⟩
      · exact h.afterWrite j y hold hwrote
      · cases hwrote

theorem booksOnce_init (hexecs : s.execs = []) (hqueue : s.queue = [])
    (hbooked : s.booked = []) : BooksOnce s := by
  have hnone : forall {value : Type} (read : Execution -> Option value) (i : Nat)
      (v : value), s.readAt read i ≠ some v := by
    intro value read i v hsome
    unfold DispatchState.readAt at hsome
    rw [hexecs] at hsome
    cases hsome
  constructor
  · constructor
    · rw [hqueue, hbooked]
      exact List.nodup_nil
    · intro i outcome
      rw [hqueue, hbooked]
      exact ⟨fun hmem => absurd hmem List.not_mem_nil,
        fun hsome => absurd hsome (hnone _ i outcome)⟩
  · constructor
    · intro i x hx
      exact absurd hx (hnone _ i x)
    · intro i j x y hx
      exact absurd hx (hnone _ i x)
  · intro i x hx
    exact absurd hx (hnone _ i x)

theorem reachable_booksOnce (hs : (dispatchMachine capacities).Reachable s) : BooksOnce s := by
  apply hs.invariant _ _
  · intro start hstart
    exact booksOnce_init hstart.left hstart.right.left hstart.right.right
  · intro before op after h _ hstep
    exact booksOnce_step h (dispatchStep_effect hstep)

/-!
## Exactly once
-/

theorem BookedOnce.count_eq_one (h : BookedOnce s) (hcompletion : s.completionOf i = some outcome) :
    (s.queue.map Prod.fst).count i + (s.booked.map Prod.fst).count i = 1 := by
  have hmem : i ∈ (s.booked ++ s.queue).map Prod.fst :=
    List.mem_map.mpr ⟨(i, outcome), (h.mem_iff i outcome).mpr hcompletion, rfl⟩
  have hcount := List.count_eq_one_of_mem h.nodup hmem
  rw [List.map_append, List.count_append, Nat.add_comm] at hcount
  exact hcount

theorem BookedOnce.not_mem (h : BookedOnce s) (hcompletion : s.completionOf i = none) :
    ¬ i ∈ s.queue.map Prod.fst ∧ ¬ i ∈ s.booked.map Prod.fst := by
  have hnone : forall entry, entry ∈ s.booked ++ s.queue -> entry.fst ≠ i := by
    intro entry hentry hfst
    have hsome := (h.mem_iff entry.fst entry.snd).mp hentry
    rw [hfst, hcompletion] at hsome
    cases hsome
  constructor
  · intro hqueue
    rcases List.mem_map.mp hqueue with ⟨entry, hentry, hfst⟩
    exact hnone entry (List.mem_append_right _ hentry) hfst
  · intro hbooked
    rcases List.mem_map.mp hbooked with ⟨entry, hentry, hfst⟩
    exact hnone entry (List.mem_append_left _ hentry) hfst

theorem complete_enabled (capacities : Capacities)
    (hfound : s.execs[i]? = some e) (hstage : e.stage = .running x)
    (hpc : x.pc = .returned outcome) (hself : e.selfSettling = false) :
    exists t, dispatchStep capacities s (.complete i) = some t ∧
      t.completionOf i = some outcome := by
  have hstep : dispatchStep capacities s (.complete i) =
      some (((s.setStage i e.task (.completed x outcome)).queueCompletion i e.task
        outcome).unregister e.task) := by
    simp only [dispatchStep, hfound, hstage, stageStep, hpc]
  refine ⟨_, hstep, ?_⟩
  rcases queueCompletion_frame (s.setStage i e.task (.completed x outcome)) i
    e.task outcome with ⟨_, hexecs, _, _⟩
  refine (DispatchState.readAt_set Execution.completion? hfound hexecs i).trans ?_
  rw [if_pos rfl]
  exact if_neg (by rw [← Bool.not_eq_true] at hself; exact hself)

/-- In every reachable state a completion that was handed over is queued or
booked, exactly once and with the outcome of its execution, and no other is.
An execution whose `run_task` returns can hand its completion over; one that
wrote its terminal row and raised did so for a cleanup, a cancel or a database
call.  Executions of one task do not both claim it. -/
theorem exactly_once_booking (capacities : Capacities) (s : DispatchState)
    (hs : (dispatchMachine capacities).Reachable s) :
    (forall i outcome, s.completionOf i = some outcome ->
      (s.queue.map Prod.fst).count i + (s.booked.map Prod.fst).count i = 1 ∧
      (i, outcome) ∈ s.booked ++ s.queue) ∧
    (forall i, s.completionOf i = none ->
      ¬ i ∈ s.queue.map Prod.fst ∧ ¬ i ∈ s.booked.map Prod.fst) ∧
    (forall i e x outcome, s.execs[i]? = some e -> e.stage = .running x ->
      x.pc = .returned outcome -> e.selfSettling = false ->
        exists t, (dispatchMachine capacities).step s (.complete i) = some t ∧
          t.completionOf i = some outcome) ∧
    (forall i x why, s.execOf i = some x -> x.wrote = true ->
      x.pc = .raised why ->
        why = .cancelled ∨ why = .database ∨ exists result, why = .cleanupUnconfirmed result) ∧
    (forall i j x y, s.execOf i = some x -> s.execOf j = some y ->
      x.claimed = true -> y.claimed = true -> x.task.taskId = y.task.taskId -> i = j) := by
  have h := reachable_booksOnce hs
  refine ⟨?_, ?_, ?_, ?_, h.claimedOnce.unique⟩
  · intro i outcome hcompletion
    exact ⟨h.bookedOnce.count_eq_one hcompletion, (h.bookedOnce.mem_iff i outcome).mpr hcompletion⟩
  · intro i hcompletion
    exact h.bookedOnce.not_mem hcompletion
  · intro i e x outcome hfound hstage hpc hself
    exact complete_enabled capacities hfound hstage hpc hself
  · intro i x why hx hwrote hpc
    have hafter := h.afterWrite i x hx hwrote
    rw [hpc] at hafter
    cases why with
    | cancelled => exact Or.inl rfl
    | cleanupUnconfirmed result => exact Or.inr (Or.inr ⟨result, rfl⟩)
    | database => exact Or.inr (Or.inl rfl)
    | refused => exact absurd hafter id

def measureTask : TaskRow where
  taskId := "m"
  kind := "baseline"
  state := .queued
  createdAt := ⟨0⟩
  updatedAt := ⟨0⟩

def freshDispatcher : DispatchState where
  db :=
    { tasks := { rows := [measureTask], unique := List.nodup_singleton _ }
      leases := Table.empty }
  execs := []
  queue := []
  booked := []
  inflight := []

def measured (cleanup : Cleanup) : List DispatchOp :=
  [.spawn measureTask someAcquirer, .recordEvidence 0 true,
    .exec 0 (.policy .admitted), .exec 0 (.claim ⟨1⟩ .done),
    .exec 0 (.lookup true), .exec 0 (.executor (.returned [])),
    .exec 0 (.resources cleanup), .exec 0 (.terminal ⟨2⟩ .done)]

theorem exactly_once_booking_measured :
    exists s, (dispatchMachine defaultLaneCapacities).Reachable s ∧ s.booked.map Prod.fst = [0] ∧
      (s.queue.map Prod.fst).count 0 + (s.booked.map Prod.fst).count 0 = 1 := by
  have hrun : exists s, (dispatchMachine defaultLaneCapacities).ReachableWhere Machine.Always s ∧
        (s.booked.map Prod.fst = [0] ∧ (s.completionOf 0).isSome = true) :=
    Machine.ReachableWhere.exists_of_runIf freshDispatcher
      (measured .notGiven ++ [.complete 0, .book]) ⟨rfl, rfl, rfl⟩ (by decide +kernel)
  rcases hrun with ⟨s, hs, hbooked, hcompletion⟩
  rcases Option.isSome_iff_exists.mp hcompletion with ⟨outcome, hcompletion⟩
  exact ⟨s, hs, hbooked,
    ((exactly_once_booking defaultLaneCapacities s hs).left 0 outcome hcompletion).left⟩

/-- A measurement whose worker does not confirm its cleanup: the terminal row
carries its outcome, `run_task` raises, and no completion is queued or booked. -/
theorem finished_measurement_not_booked :
    exists s, (dispatchMachine defaultLaneCapacities).Reachable s ∧
      (s.execOf 0).any (fun x => x.wrote && x.raises) = true ∧
      (s.execs.map Execution.selfSettling) = [false] ∧
      s.queue.map Prod.fst = [] ∧ s.booked.map Prod.fst = [] :=
  Machine.ReachableWhere.exists_of_runIf freshDispatcher
    (measured (.answered false)) ⟨rfl, rfl, rfl⟩ (by decide +kernel)

end Loop
end Hyperloom
