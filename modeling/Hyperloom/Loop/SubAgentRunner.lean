import Hyperloom.State.TaskRegistry

/-!
# Running one dispatched task

`run_task` claims a queued row, runs its executor, gives back what the
execution held and records the outcome.  Its awaits are the steps of a small
machine: each step takes the answer its await got, a database call that commits
or fails included, and other coroutines may run between any two steps.
-/

namespace Hyperloom
namespace Loop

open Storage Bus State

/-!
## Outcomes and answers
-/

inductive OutcomeState where
  | succeeded
  | failed
  | cancelled
deriving DecidableEq

def OutcomeState.taskState : OutcomeState -> TaskState
  | succeeded => .succeeded
  | failed => .failed
  | cancelled => .cancelled

structure SubAgentResult where
  taskId : String
  state : OutcomeState
  result : Evidence
  error : Option String := none
  errorClass : String := ""

def SubAgentResult.asdict (outcome : SubAgentResult) : Evidence :=
  [("task_id", .str outcome.taskId), ("state", .str outcome.state.taskState.name),
    ("result", .obj outcome.result), ("error", outcome.error.elim .null .str),
    ("error_class", .str outcome.errorClass)]

structure Denial where
  rule : Option String
  error : String
deriving DecidableEq

inductive PolicyAnswer where
  | admitted
  | denied (denial : Denial)
  | failed
deriving DecidableEq

/-- What an await may raise: `CancelledError`, or an ordinary exception. -/
inductive Fault where
  | cancelled
  | error
deriving DecidableEq

/-- How a database call ends: it may raise before or after its commit. -/
inductive DbAnswer where
  | done
  | before (fault : Fault)
  | after (fault : Fault)
deriving DecidableEq

namespace DbAnswer

def commits : DbAnswer -> Bool
  | done => true
  | before _ => false
  | after _ => true

def fault? : DbAnswer -> Option Fault
  | done => none
  | before fault => some fault
  | after fault => some fault

end DbAnswer

/-- An exception that leaves physical cleanup unconfirmed, with its text. -/
inductive CleanupError where
  | cancelled (text : String)
  | unconfirmed (text : String) (treePgid : Option Int)
  | other (text : String)
deriving DecidableEq

namespace CleanupError

def text : CleanupError -> String
  | cancelled text => text
  | unconfirmed text _ => text
  | other text => text

def treePgid : CleanupError -> Option Int
  | unconfirmed _ treePgid => treePgid
  | _ => none

end CleanupError

/-- How `release_resources` ends, if the caller gave one. -/
inductive Cleanup where
  | notGiven
  | answered (isTrue : Bool)
  | raised (error : CleanupError)
deriving DecidableEq

/-- Whether physical cleanup is confirmed, and if not what was raised. -/
inductive Verdict where
  | confirmed
  | unconfirmed (error : Option CleanupError)
deriving DecidableEq

def Cleanup.verdict : Cleanup -> Verdict
  | notGiven => .confirmed
  | answered true => .confirmed
  | answered false => .unconfirmed none
  | raised error => .unconfirmed (some error)

inductive Ending where
  | returned (payload : Evidence)
  | raised (errorClass text : String)
  | futuresCancelled (text : String)
  | cleanupUnconfirmed (text : String) (result : Option SubAgentResult) (treePgid : Option Int)
  | cancelled

/-!
## Evidence
-/

/-- What an unconfirmed cleanup adds to the evidence of the terminal row. -/
def cleanupEvidence : Verdict -> Evidence
  | .confirmed => []
  | .unconfirmed none =>
    [("cleanup_error", .str "physical cleanup unconfirmed")]
  | .unconfirmed (some error) =>
    ("cleanup_error", .str error.text) ::
      match error.treePgid with
      | none => []
      | some pgid => if pgid = 0 then [] else [("cleanup_tree_pgid", .int pgid)]

/-- The evidence `_settle_execution` records with a terminal row. -/
def settledEvidence (evidence : Evidence) (outcome : SubAgentResult)
    (verdict : Verdict) : Evidence :=
  evidence ++ [("outcome", .obj outcome.asdict),
      ("cleanup_confirmed", .bool (decide (verdict = .confirmed)))] ++ cleanupEvidence verdict

structure Executed where
  outcome : SubAgentResult
  evidence : Evidence

variable (task : TaskRow)

def deniedOutcome (denial : Denial) : Executed where
  outcome :=
    { taskId := task.taskId
      state := .cancelled
      result := []
      error := some denial.error
      errorClass := "policy_" ++
        (if denial.rule.getD "" = "" then "denied" else denial.rule.getD "") }
  evidence :=
    [("reason", .str "policy_denied"), ("rule", denial.rule.elim .null .str),
      ("error", .str denial.error)]

def noExecutorOutcome : Executed where
  outcome :=
    { taskId := task.taskId
      state := .failed
      result := []
      error := some ("no runner registered for kind='" ++ task.kind ++ "'")
      errorClass := "no_executor" }
  evidence := [("reason", .str "no_executor"), ("kind", .str task.kind)]

def succeededOutcome (payload : Evidence) : Executed where
  outcome := { taskId := task.taskId, state := .succeeded, result := payload }
  evidence :=
    [("result_keys", .arr (((payload.map Prod.fst).insertionSort (fun a b => a ≤ b)).map .str))]

def failedOutcome (errorClass text : String) : Executed where
  outcome :=
    { taskId := task.taskId
      state := .failed
      result := []
      error := some text
      errorClass := errorClass }
  evidence := [("error", .str text)]

def cancelledOutcome (text : String) : Executed where
  outcome :=
    { taskId := task.taskId
      state := .cancelled
      result := [("status", .str "cancelled"), ("reason", .str text)]
      error := some text
      errorClass := "cancelled" }
  evidence := [("reason", .str text)]

/-!
## The steps of `run_task`
-/

/-- How `run_task` raises: a hard cancel, an unconfirmed cleanup, a database
call of its settlement, or the error that kept it from executing. -/
inductive Raise where
  | cancelled
  | cleanupUnconfirmed (result : Option SubAgentResult)
  | database
  | refused

/-- What `run_task` waits for. -/
inductive Pc where
  | policy
  | claim
  | lookup
  | executing
  | resources (executed : Option Executed)
  | terminal (outcome : SubAgentResult) (evidence : Evidence) (verdict : Verdict)
  | completion (outcome : SubAgentResult) (evidence : Evidence) (verdict : Verdict)
  | lanes (lease : Lease) (outcome : Option SubAgentResult) (verdict : Verdict)
  | returned (outcome : SubAgentResult)
  | raised (why : Raise)

structure Exec where
  task : TaskRow
  lease : Option Lease
  pc : Pc := .policy
  claimed : Bool := false
  invoked : Bool := false
  wrote : Bool := false
  released : Bool := false

def acquireRequest : AcquireRequest where
  lanes := task.requiresLanes
  holderId := task.taskId
  taskId := task.taskId
  action := task.kind
  ttlSec := if task.leaseTtlSec = 0 then 60 else task.leaseTtlSec

def someAcquirer : Acquirer where
  pid := 1
  now := 0
  stamp := ⟨0⟩
  scope := fun _ => ""

inductive Answer where
  | policy (answer : PolicyAnswer)
  | claim (now : Iso) (db : DbAnswer)
  | lookup (registered : Bool)
  | executor (ending : Ending)
  | resources (cleanup : Cleanup)
  | terminal (now : Iso) (db : DbAnswer)
  | completion (now : Iso) (db : DbAnswer)
  | lanes (db : DbAnswer)

structure Db where
  tasks : Tasks
  leases : Leases

variable (x : Exec)

def Exec.goto (pc : Pc) : Exec := { x with pc := pc }

def Fault.raise : Fault -> Raise
  | cancelled => .cancelled
  | error => .database

/-- How `run_task` ends once everything is settled. -/
def finish : Option SubAgentResult -> Verdict -> Pc
  | some outcome, .confirmed => .returned outcome
  | none, .confirmed => .raised .refused
  | _, .unconfirmed (some (.cancelled _)) => .raised .cancelled
  | outcome, .unconfirmed _ => .raised (.cleanupUnconfirmed outcome)

def settlePc (outcome : Option SubAgentResult) (verdict : Verdict) : Pc :=
  match x.lease with
  | none => finish outcome verdict
  | some lease => .lanes lease outcome verdict

/-- Where an execution goes from its own end. -/
def endingPc : Ending -> Pc
  | .returned payload => .resources (some (succeededOutcome task payload))
  | .raised errorClass text =>
    .resources (some (failedOutcome task errorClass text))
  | .futuresCancelled text => .resources (some (cancelledOutcome task text))
  | .cleanupUnconfirmed text (some outcome) treePgid =>
    let verdict := .unconfirmed (some (.unconfirmed text treePgid))
    .terminal outcome (settledEvidence [] outcome verdict) verdict
  | .cleanupUnconfirmed _ none _ => .raised (.cleanupUnconfirmed none)
  | .cancelled => .raised .cancelled

/-- Where the answer of `release_resources` leads.  Without an outcome the lanes
go back only if cleanup is confirmed. -/
def resourcesPc : Option Executed -> Verdict -> Pc
  | some executed, verdict =>
    .terminal executed.outcome (settledEvidence executed.evidence executed.outcome verdict) verdict
  | none, .confirmed => settlePc x none .confirmed
  | none, .unconfirmed error => finish none (.unconfirmed error)

variable (db : Db) (x : Exec)

/-- The claim: `queued` to `running`, whose rejection is the double-spawn
guard. -/
def stepClaim (now : Iso) (answer : DbAnswer) : Db × Exec :=
  match answer.commits, transition db.tasks x.task.taskId .running [] now with
  | true, .ok tasks =>
    ({ db with tasks := tasks }, { x with
        claimed := true
        pc :=
          match answer.fault? with
          | none => .lookup
          | some .cancelled => .raised .cancelled
          | some .error => .resources none })
  | _, _ =>
    (db, x.goto (match answer.fault? with
        | some .cancelled => .raised .cancelled
        | _ => .resources none))

variable (outcome : SubAgentResult) (evidence : Evidence)

/-- `_write_terminal`, which leaves a row already terminal to
`append_completion_evidence`. -/
def stepTerminal (verdict : Verdict) (now : Iso) (answer : DbAnswer) : Db × Exec :=
  if answer.commits then
    match transition db.tasks x.task.taskId outcome.state.taskState evidence now with
    | .ok tasks =>
      ({ db with tasks := tasks }, { x with
          wrote := true
          pc :=
            match answer.fault? with
            | none => settlePc x (some outcome) verdict
            | some fault => .raised fault.raise })
    | .error (.illegalTransition _ _ _) =>
      (db, x.goto (.completion outcome evidence verdict))
    | .error _ => (db, x.goto (.raised .database))
  else (db, x.goto (.raised ((answer.fault?.map Fault.raise).getD .database)))

def stepCompletion (verdict : Verdict) (now : Iso) (answer : DbAnswer) : Db × Exec :=
  match answer.commits, appendCompletionEvidence db.tasks x.task.taskId evidence now with
  | true, .ok tasks =>
    ({ db with tasks := tasks }, x.goto (match answer.fault? with
        | none => settlePc x (some outcome) verdict
        | some fault => .raised fault.raise))
  | _, _ =>
    (db, x.goto (.raised ((answer.fault?.map Fault.raise).getD .database)))

def stepLanes (lease : Lease)
    (outcome : Option SubAgentResult) (verdict : Verdict) (answer : DbAnswer) : Db × Exec :=
  if answer.commits then
    ({ db with leases := release db.leases lease }, { x with
        released := true
        pc :=
          match answer.fault? with
          | none => finish outcome verdict
          | some fault => .raised fault.raise })
  else (db, x.goto (.raised ((answer.fault?.map Fault.raise).getD .database)))

/-- One step of `run_task`; an answer to another await is no step. -/
def runStep (answer : Answer) : Option (Db × Exec) :=
  match x.pc, answer with
  | .policy, .policy .admitted =>
    -- an action whose lanes nobody holds would run unserialised
    if x.lease.isNone ∧ x.task.requiresLanes ≠ [] then
      some (db, x.goto (.resources none))
    else some (db, x.goto .claim)
  | .policy, .policy (.denied denial) =>
    some (db, x.goto (.resources (some (deniedOutcome x.task denial))))
  | .policy, .policy .failed => some (db, x.goto (.resources none))
  | .claim, .claim now db' => some (stepClaim db x now db')
  | .lookup, .lookup true =>
    some (db, { x with pc := .executing, invoked := true })
  | .lookup, .lookup false =>
    some (db, x.goto (.resources (some (noExecutorOutcome x.task))))
  | .executing, .executor ending => some (db, x.goto (endingPc x.task ending))
  | .resources executed, .resources cleanup =>
    some (db, x.goto (resourcesPc x executed cleanup.verdict))
  | .terminal outcome evidence verdict, .terminal now db' =>
    some (stepTerminal db x outcome evidence verdict now db')
  | .completion outcome evidence verdict, .completion now db' =>
    some (stepCompletion db x outcome evidence verdict now db')
  | .lanes lease outcome verdict, .lanes db' =>
    some (stepLanes db x lease outcome verdict db')
  | _, _ => none

/-- `run_task` without interruption, up to the last of some answers. -/
def runAll (db : Db) (x : Exec) : List Answer -> Option (Db × Exec)
  | [] => some (db, x)
  | answer :: rest =>
    match runStep db x answer with
    | none => none
    | some (db', x') => runAll db' x' rest

/-!
## What a step does

Most steps only move on; the others claim the row, call the executor, write the
tables, or give the lanes back.
-/

/-- The steps that write nothing. -/
inductive Moves (x : Exec) : Pc -> Answer -> Pc -> Prop where
  | admitted : Moves x .policy (.policy .admitted) .claim
  | refused (answer : PolicyAnswer) : Moves x .policy (.policy answer) (.resources none)
  | denied (denial : Denial) :
    Moves x .policy (.policy (.denied denial)) (.resources (some (deniedOutcome x.task denial)))
  | unclaimed (now : Iso) (db : DbAnswer) : Moves x .claim (.claim now db) (.resources none)
  | claimCancelled (now : Iso) (db : DbAnswer) : Moves x .claim (.claim now db) (.raised .cancelled)
  | unregistered : Moves x .lookup (.lookup false) (.resources (some (noExecutorOutcome x.task)))
  | ended (ending : Ending) : Moves x .executing (.executor ending) (endingPc x.task ending)
  | cleaned (executed : Option Executed) (cleanup : Cleanup) :
    Moves x (.resources executed) (.resources cleanup) (resourcesPc x executed cleanup.verdict)
  | already (outcome : SubAgentResult) (evidence : Evidence) (verdict : Verdict)
    (now : Iso) (db : DbAnswer) :
    Moves x (.terminal outcome evidence verdict) (.terminal now db)
      (.completion outcome evidence verdict)
  | unwritten (outcome : SubAgentResult) (evidence : Evidence)
    (verdict : Verdict) (now : Iso) (db : DbAnswer) (fault : Fault) :
    Moves x (.terminal outcome evidence verdict) (.terminal now db) (.raised fault.raise)
  | unappended (outcome : SubAgentResult) (evidence : Evidence)
    (verdict : Verdict) (now : Iso) (db : DbAnswer) (fault : Fault) :
    Moves x (.completion outcome evidence verdict) (.completion now db) (.raised fault.raise)
  | unreleased (lease : Lease) (outcome : Option SubAgentResult)
    (verdict : Verdict) (db : DbAnswer) (fault : Fault) :
    Moves x (.lanes lease outcome verdict) (.lanes db) (.raised fault.raise)

inductive RunEffect (db : Db) (x : Exec) : Answer -> Db -> Exec -> Prop where
  | moved (answer : Answer) (pc : Pc) :
    Moves x x.pc answer pc -> RunEffect db x answer db (x.goto pc)
  | claims (now : Iso) (answer : DbAnswer) (tasks : Tasks) (pc : Pc) : x.pc = .claim ->
    transition db.tasks x.task.taskId .running [] now = .ok tasks ->
    pc = .lookup ∨ pc = .raised .cancelled ∨ pc = .resources none ->
    RunEffect db x (.claim now answer) { db with tasks := tasks }
      { x with claimed := true, pc := pc }
  | invokes : x.pc = .lookup ->
    RunEffect db x (.lookup true) db { x with pc := .executing, invoked := true }
  | writes (outcome : SubAgentResult) (evidence : Evidence) (verdict : Verdict)
    (now : Iso) (answer : DbAnswer) (tasks : Tasks) (pc : Pc) :
    x.pc = .terminal outcome evidence verdict ->
    transition db.tasks x.task.taskId outcome.state.taskState evidence now = .ok tasks ->
    pc = settlePc x (some outcome) verdict ∨ (exists fault : Fault, pc = .raised fault.raise) ->
    RunEffect db x (.terminal now answer) { db with tasks := tasks }
      { x with wrote := true, pc := pc }
  | appends (outcome : SubAgentResult) (evidence : Evidence) (verdict : Verdict)
    (now : Iso) (answer : DbAnswer) (tasks : Tasks) (pc : Pc) :
    x.pc = .completion outcome evidence verdict ->
    appendCompletionEvidence db.tasks x.task.taskId evidence now = .ok tasks ->
    pc = settlePc x (some outcome) verdict ∨ (exists fault : Fault, pc = .raised fault.raise) ->
    RunEffect db x (.completion now answer) { db with tasks := tasks } (x.goto pc)
  | releases (lease : Lease) (outcome : Option SubAgentResult)
    (verdict : Verdict) (answer : DbAnswer) (pc : Pc) : x.pc = .lanes lease outcome verdict ->
    pc = finish outcome verdict ∨ (exists fault : Fault, pc = .raised fault.raise) ->
    RunEffect db x (.lanes answer) { db with leases := release db.leases lease }
      { x with released := true, pc := pc }

theorem raised_getD (answer : DbAnswer) :
    exists fault : Fault, (answer.fault?.map Fault.raise).getD .database = fault.raise := by
  cases hfault : answer.fault? with
  | none => exact ⟨.error, rfl⟩
  | some fault => exact ⟨fault, rfl⟩

theorem fault_cases (answer : DbAnswer) (pc : Pc) :
    (match answer.fault? with
      | none => pc
      | some fault => .raised fault.raise) = pc ∨ (exists fault : Fault, (match answer.fault? with
        | none => pc
        | some fault => .raised fault.raise) = .raised fault.raise) := by
  cases answer.fault? with
  | none => exact Or.inl rfl
  | some fault => exact Or.inr ⟨fault, rfl⟩

theorem stepClaim_effect (now : Iso) (answer : DbAnswer) (hpc : x.pc = .claim) :
    RunEffect db x (.claim now answer) (stepClaim db x now answer).fst
      (stepClaim db x now answer).snd := by
  unfold stepClaim
  split
  · rename_i tasks hcommits hok
    refine RunEffect.claims now answer tasks _ hpc hok ?_
    cases answer.fault? with
    | none => exact Or.inl rfl
    | some fault =>
      cases fault with
      | cancelled => exact Or.inr (Or.inl rfl)
      | error => exact Or.inr (Or.inr rfl)
  · apply RunEffect.moved
    rw [hpc]
    split
    · exact Moves.claimCancelled now answer
    · exact Moves.unclaimed now answer

variable {verdict : Verdict}

theorem stepTerminal_effect {outcome : SubAgentResult}
    {evidence : Evidence} (now : Iso) (answer : DbAnswer)
    (hpc : x.pc = .terminal outcome evidence verdict) : RunEffect db x (.terminal now answer)
      (stepTerminal db x outcome evidence verdict now answer).fst
      (stepTerminal db x outcome evidence verdict now answer).snd := by
  unfold stepTerminal
  split
  · split
    · rename_i tasks hok
      exact RunEffect.writes outcome evidence verdict now answer tasks _ hpc hok
        (fault_cases answer _)
    · apply RunEffect.moved
      rw [hpc]
      exact Moves.already outcome evidence verdict now answer
    · apply RunEffect.moved
      rw [hpc]
      exact Moves.unwritten outcome evidence verdict now answer .error
  · apply RunEffect.moved
    rcases raised_getD answer with ⟨fault, hfault⟩
    rw [hpc, hfault]
    exact Moves.unwritten outcome evidence verdict now answer fault

theorem stepCompletion_effect {outcome : SubAgentResult}
    {evidence : Evidence} (now : Iso) (answer : DbAnswer)
    (hpc : x.pc = .completion outcome evidence verdict) : RunEffect db x (.completion now answer)
      (stepCompletion db x outcome evidence verdict now answer).fst
      (stepCompletion db x outcome evidence verdict now answer).snd := by
  unfold stepCompletion
  split
  · rename_i tasks hcommits hok
    exact RunEffect.appends outcome evidence verdict now answer tasks _ hpc hok
      (fault_cases answer _)
  · apply RunEffect.moved
    rcases raised_getD answer with ⟨fault, hfault⟩
    rw [hpc, hfault]
    exact Moves.unappended outcome evidence verdict now answer fault

variable {outcome : Option SubAgentResult}

theorem stepLanes_effect {lease : Lease}
    (answer : DbAnswer) (hpc : x.pc = .lanes lease outcome verdict) :
    RunEffect db x (.lanes answer) (stepLanes db x lease outcome verdict answer).fst
      (stepLanes db x lease outcome verdict answer).snd := by
  unfold stepLanes
  split
  · exact RunEffect.releases lease outcome verdict answer _ hpc (fault_cases answer _)
  · apply RunEffect.moved
    rcases raised_getD answer with ⟨fault, hfault⟩
    rw [hpc, hfault]
    exact Moves.unreleased lease outcome verdict answer fault

variable {x x' : Exec} {answer : Answer} {db db' : Db}

theorem runStep_effect (h : runStep db x answer = some (db', x')) :
    RunEffect db x answer db' x' := by
  have hmoved : forall pc, Moves x x.pc answer pc -> RunEffect db x answer db (x.goto pc) :=
    fun pc hmoves => RunEffect.moved answer pc hmoves
  have hstep : forall out : Db × Exec, RunEffect db x answer out.fst out.snd ->
      some out = some (db', x') -> RunEffect db x answer db' x' := by
    intro out heffect hsome
    rw [Option.some.inj hsome] at heffect
    exact heffect
  revert h
  fun_cases runStep db x answer with (intro h; try cases h)
  | case1 hpc => exact hmoved _ (by rw [hpc]; exact Moves.refused .admitted)
  | case2 hpc => exact hmoved _ (by rw [hpc]; exact Moves.admitted)
  | case3 denial hpc => exact hmoved _ (by rw [hpc]; exact Moves.denied denial)
  | case4 hpc => exact hmoved _ (by rw [hpc]; exact Moves.refused .failed)
  | case5 now db'' hpc => exact hstep _ (stepClaim_effect db x now db'' hpc) h
  | case6 hpc => exact RunEffect.invokes hpc
  | case7 hpc => exact hmoved _ (by rw [hpc]; exact Moves.unregistered)
  | case8 ending hpc => exact hmoved _ (by rw [hpc]; exact Moves.ended ending)
  | case9 executed cleanup hpc => exact hmoved _ (by rw [hpc]; exact Moves.cleaned executed cleanup)
  | case10 _ _ _ now db'' hpc => exact hstep _ (stepTerminal_effect db x now db'' hpc) h
  | case11 _ _ _ now db'' hpc => exact hstep _ (stepCompletion_effect db x now db'' hpc) h
  | case12 _ _ _ db'' hpc => exact hstep _ (stepLanes_effect db x db'' hpc) h

/-!
The same facts by what they are about: the task, the claim, the tables.
-/

namespace RunEffect

variable {db db' : Db} {x x' : Exec} {answer : Answer}

section

variable (h : RunEffect db x answer db' x')

include h

theorem task_eq : x'.task = x.task ∧ x'.lease = x.lease := by
  cases h <;> exact ⟨rfl, rfl⟩

theorem advances : Advances db.tasks db'.tasks := by
  cases h with
  | claims now answer tasks pc _ hok _ => exact advances_transition hok
  | writes outcome evidence verdict now answer tasks pc _ hok _ =>
    exact advances_transition hok
  | appends outcome evidence verdict now answer tasks pc _ hok _ =>
    exact advances_appendCompletionEvidence hok
  | _ => exact Advances.refl db.tasks

theorem claimed_cases : x'.claimed = x.claimed ∨
    (x.pc = .claim ∧ InQueue db.tasks x.task.taskId ∧ ¬ InQueue db'.tasks x.task.taskId) := by
  cases h with
  | claims now answer tasks pc hpc hok _ =>
    exact Or.inr ⟨hpc, inQueue_of_claim hok, not_inQueue_transition hok⟩
  | appends outcome evidence verdict now answer tasks pc _ _ _ =>
    exact Or.inl rfl
  | _ => exact Or.inl rfl

theorem leases_cases : x'.released = true ∨
    (x'.released = x.released ∧ db'.leases = db.leases) := by
  cases h with
  | releases lease outcome verdict answer pc _ _ => exact Or.inl rfl
  | moved answer pc _ | claims now answer tasks pc _ _ _ | invokes _ => exact Or.inr ⟨rfl, rfl⟩
  | _ =>
    exact Or.inr ⟨rfl, rfl⟩

end

end RunEffect

def Exec.raises (x : Exec) : Bool :=
  match x.pc with
  | .raised _ => true
  | _ => false

theorem RunEffect.not_raises (h : RunEffect db x answer db' x') : x.raises = false := by
  have hpc : forall pc, x.pc = pc -> (forall why, pc ≠ .raised why) -> x.raises = false := by
    intro pc hpc hne
    unfold Exec.raises
    rw [hpc]
    cases pc with
    | raised why => exact absurd rfl (hne why)
    | _ => rfl
  cases h with
  | moved answer pc hmoves =>
    generalize hold : x.pc = old at hmoves
    apply hpc old hold
    intro why hraised
    rw [hraised] at hmoves
    cases hmoves
  | claims now answer tasks pc hclaim _ _ =>
    exact hpc _ hclaim nofun
  | invokes hlookup => exact hpc _ hlookup nofun
  | writes outcome evidence verdict now answer tasks pc hterminal _ _ =>
    exact hpc _ hterminal nofun
  | appends outcome evidence verdict now answer tasks pc hcompletion _ _ =>
    exact hpc _ hcompletion nofun
  | releases lease outcome verdict answer pc hlanes _ =>
    exact hpc _ hlanes nofun

/-- Only a claimed task gets to its executor. -/
structure ClaimsFirst (x : Exec) : Prop where
  lookup : x.pc = .lookup -> x.claimed = true
  invoked : x.invoked = true -> x.claimed = true

def Late : Pc -> Prop
  | .lanes _ _ _ => True
  | .returned _ => True
  | .raised _ => True
  | _ => False

theorem late_finish (outcome : Option SubAgentResult) (verdict : Verdict) :
    Late (finish outcome verdict) := by
  unfold finish
  split <;> exact trivial

variable {pc : Pc}

theorem late_of_settled (h : pc = settlePc x outcome verdict ∨
      (exists fault : Fault, pc = .raised fault.raise)) : Late pc := by
  rcases h with rfl | ⟨fault, rfl⟩
  · rw [settlePc]
    split
    · exact late_finish outcome verdict
    · exact trivial
  · exact trivial

theorem late_of_finished (h : pc = finish outcome verdict ∨
      (exists fault : Fault, pc = .raised fault.raise)) : Late pc := by
  rcases h with rfl | ⟨fault, rfl⟩
  · exact late_finish outcome verdict
  · exact trivial

def Settling (pc : Pc) : Prop :=
  Late pc ∨ exists outcome evidence verdict, pc = .terminal outcome evidence verdict

theorem settling_resourcesPc (x : Exec) (executed : Option Executed)
    (verdict : Verdict) : Settling (resourcesPc x executed verdict) := by
  unfold resourcesPc
  split
  · exact Or.inr ⟨_, _, _, rfl⟩
  · exact Or.inl (late_of_settled (x := x) (Or.inl rfl))
  · exact Or.inl (late_finish none _)

theorem Moves.ne_lookup {pc' : Pc} (h : Moves x pc answer pc') : pc' ≠ .lookup := by
  intro hlookup
  cases h with
  | ended ending =>
    unfold endingPc at hlookup
    split at hlookup <;> cases hlookup
  | cleaned executed cleanup =>
    rcases settling_resourcesPc x executed cleanup.verdict with hlate | hwrite
    · rw [hlookup] at hlate
      exact hlate
    · rcases hwrite with ⟨_, _, _, hwrite⟩
      cases hlookup.symm.trans hwrite
  | _ => cases hlookup

theorem Late.ne_lookup (h : Late pc) : pc ≠ .lookup := by
  intro hlookup
  rw [hlookup] at h
  exact h

theorem claimsFirst_step (h : ClaimsFirst x)
    (heffect : RunEffect db x answer db' x') : ClaimsFirst x' := by
  cases heffect with
  | moved answer pc hmoves =>
    exact ⟨fun hlookup => absurd hlookup hmoves.ne_lookup, h.invoked⟩
  | claims now answer tasks pc _ _ _ => exact ⟨fun _ => rfl, fun _ => rfl⟩
  | invokes hpc => exact ⟨fun _ => h.lookup hpc, fun _ => h.lookup hpc⟩
  | writes outcome evidence verdict now answer tasks pc _ _ hnext
  | appends outcome evidence verdict now answer tasks pc _ _ hnext =>
    exact ⟨fun hlookup => absurd hlookup (late_of_settled hnext).ne_lookup, h.invoked⟩
  | releases lease outcome verdict answer pc _ hnext =>
    exact ⟨fun hlookup => absurd hlookup (late_of_finished hnext).ne_lookup, h.invoked⟩

/-!
## Several calls over one table

Whatever a family of calls does in whatever order, one task is claimed by one
of them at most.
-/

section

variable {ι : Type}

structure ClaimedOnce (tasks : Tasks) (execOf : ι -> Option Exec) : Prop where
  taken : forall i x, execOf i = some x -> x.claimed = true -> ¬ InQueue tasks x.task.taskId
  unique : forall i j x y, execOf i = some x -> execOf j = some y ->
    x.claimed = true -> y.claimed = true -> x.task.taskId = y.task.taskId -> i = j

variable {tasks after : Tasks} {old new : ι -> Option Exec}

theorem ClaimedOnce.of_old (h : ClaimedOnce tasks old) (hadvances : forall i x, old i = some x ->
      InQueue after x.task.taskId -> InQueue tasks x.task.taskId)
    (hclaims : forall i x, new i = some x -> x.claimed = true ->
      exists y, old i = some y ∧ y.claimed = true ∧ y.task = x.task) : ClaimedOnce after new := by
  constructor
  · intro i x hx hclaimed
    rcases hclaims i x hx hclaimed with ⟨y, hy, hyclaimed, htask⟩
    rw [← htask]
    exact fun hqueued => h.taken i y hy hyclaimed (hadvances i y hy hqueued)
  · intro i j x y hx hy hcx hcy hsame
    rcases hclaims i x hx hcx with ⟨x', hx', hcx', htaskx⟩
    rcases hclaims j y hy hcy with ⟨y', hy', hcy', htasky⟩
    rw [← htaskx, ← htasky] at hsame
    exact h.unique i j x' y' hx' hy' hcx' hcy' hsame

theorem ClaimedOnce.step {db db' : Db} {i : ι} {x x' : Exec} {answer : Answer}
    (h : ClaimedOnce db.tasks old) (hx : old i = some x)
    (hrun : RunEffect db x answer db' x') (hnew : new i = some x')
    (hothers : forall j, j ≠ i -> new j = old j) : ClaimedOnce db'.tasks new := by
  have htask := hrun.task_eq.left
  rcases hrun.claimed_cases with hsame | ⟨_, hqueued, htaken⟩
  · apply h.of_old (fun _ _ _ => hrun.advances _)
    intro j y hy hclaimed
    by_cases hji : j = i
    · rw [hji, hnew] at hy
      cases hy
      exact ⟨x, by rw [hji, hx], hsame.symm.trans hclaimed, htask.symm⟩
    · exact ⟨y, (hothers j hji).symm.trans hy, hclaimed, rfl⟩
  · -- nobody else had claimed a task that was still queued
    have hfirst : forall j y, j ≠ i -> new j = some y -> y.claimed = true ->
        y.task.taskId ≠ x.task.taskId := by
      intro j y hji hy hclaimed hid
      have htakenBefore := h.taken j y ((hothers j hji).symm.trans hy) hclaimed
      rw [hid] at htakenBefore
      exact htakenBefore hqueued
    constructor
    · intro j y hy hclaimed
      by_cases hji : j = i
      · rw [hji, hnew] at hy
        cases hy
        rw [htask]
        exact htaken
      · intro hback
        exact h.taken j y ((hothers j hji).symm.trans hy) hclaimed (hrun.advances _ hback)
    · intro j k y z hy hz hcy hcz hid
      by_cases hji : j = i
      · by_cases hki : k = i
        · rw [hji, hki]
        · rw [hji, hnew] at hy
          cases hy
          rw [htask] at hid
          exact absurd hid.symm (hfirst k z hki hz hcz)
      · by_cases hki : k = i
        · rw [hki, hnew] at hz
          cases hz
          rw [htask] at hid
          exact absurd hid (hfirst j y hji hy hcy)
        · exact h.unique j k y z ((hothers j hji).symm.trans hy)
            ((hothers k hki).symm.trans hz) hcy hcz hid

end

/-!
## Raising after the terminal row
-/

/-- Where a call stands that has written its terminal row: it returns, or it
raises for a cleanup, a cancel or a database call, never for want of an
outcome. -/
def AfterWrite : Pc -> Prop
  | .lanes _ outcome _ => outcome ≠ none
  | .returned _ => True
  | .raised .refused => False
  | .raised _ => True
  | _ => False

theorem afterWrite_raised (fault : Fault) : AfterWrite (.raised fault.raise) := by
  cases fault <;> exact trivial

theorem afterWrite_finish (outcome : SubAgentResult) (verdict : Verdict) :
    AfterWrite (finish (some outcome) verdict) := by
  unfold finish
  split
  · exact trivial
  · rename_i hnone
    cases hnone
  · exact trivial
  · exact trivial

theorem afterWrite_settlePc (x : Exec) (outcome : SubAgentResult)
    (verdict : Verdict) : AfterWrite (settlePc x (some outcome) verdict) := by
  unfold settlePc
  split
  · exact afterWrite_finish outcome verdict
  · nofun

theorem afterWrite_step (h : x.wrote = true -> AfterWrite x.pc)
    (heffect : RunEffect db x answer db' x') : x'.wrote = true -> AfterWrite x'.pc := by
  -- a call that has written is past every await but the release of its lanes
  have hpast : forall pc, x.pc = pc -> ¬ AfterWrite pc -> x.wrote = true -> False := by
    intro pc hpc hnot hwrote
    have hafter := h hwrote
    rw [hpc] at hafter
    exact hnot hafter
  cases heffect with
  | moved answer pc hmoves =>
    intro hwrote
    have hafter := h hwrote
    generalize hpc : x.pc = old at hmoves
    rw [hpc] at hafter
    cases hmoves with
    | unreleased lease outcome verdict db fault => exact afterWrite_raised fault
    | _ => exact absurd hafter id
  | claims now answer tasks pc hpc _ _ | invokes hpc =>
    intro hwrote
    exact (hpast _ hpc id hwrote).elim
  | writes outcome evidence verdict now answer tasks pc _ _ hnext =>
    intro _
    rcases hnext with rfl | ⟨fault, rfl⟩
    · exact afterWrite_settlePc x outcome verdict
    · exact afterWrite_raised fault
  | appends outcome evidence verdict now answer tasks pc hpc _ _ =>
    intro hwrote
    exact (hpast _ hpc id hwrote).elim
  | releases lease outcome verdict answer pc hpc hnext =>
    intro hwrote
    have hafter := h hwrote
    rw [hpc] at hafter
    rcases hnext with rfl | ⟨fault, rfl⟩
    · cases outcome with
      | none => exact absurd rfl hafter
      | some outcome =>
        exact afterWrite_finish outcome verdict
    · exact afterWrite_raised fault

end Loop
end Hyperloom
