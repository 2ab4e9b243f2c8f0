import Hyperloom.Blackboard.Board
import Hyperloom.Toolbox.SubmissionLog
import Hyperloom.Toolbox.Queue

/-!
# The life of one test

What the submit log and the blackboard hold of one request, and what the
running process knows of it besides: where its submit or recovery stands, its
run task, and the withdrawals that wait for that task to end.
-/

namespace Hyperloom
namespace Toolbox

open Blackboard

/-!
## The documents of the log and the rows of the blackboard
-/

inductive Document where
  | request (request : TestRequest)
  | result (result : TestResult)
  | withdrawal (reason : String)
deriving DecidableEq

def Document.isOutcome : Document -> Bool
  | .request _ => false
  | .result _ => true
  | .withdrawal _ => true

/-- What the blackboard's state holds of one request. -/
structure TestRows where
  request : Option TestRequest := none
  result : Option TestResult := none
  withdrawal : Option Withdrawal := none
deriving DecidableEq

namespace TestRows

variable (rows : TestRows)

def inFlight : Bool :=
  rows.request.isSome && rows.result.isNone && rows.withdrawal.isNone

def final : Bool := rows.result.isSome || rows.withdrawal.isSome

/-- How `write_result` and `write_withdrawal` answer: the rows after, a
conflict with what the blackboard holds, or a request it does not know. -/
inductive Answer where
  | written (rows : TestRows)
  | conflict
  | unknown

/-- Write an outcome; the document of a request is none. -/
def write (requestId : String) : Document -> Answer
  | .request _ => .unknown
  | .result result =>
    if rows.request.isNone then .unknown
    else if rows.withdrawal.isSome then .conflict
    else
      match rows.result with
      | none => .written { rows with result := some result }
      | some existing =>
        if existing = result then .written rows else .conflict
  | .withdrawal reason =>
    if rows.request.isNone then .unknown
    else if rows.result.isSome then .conflict
    else
      match rows.withdrawal with
      | none => .written { rows with withdrawal := some ⟨requestId, reason⟩ }
      | some existing =>
        if existing = ⟨requestId, reason⟩ then .written rows else .conflict

def Tells (requestId : String) : Document -> Prop
  | .request _ => False
  | .result result => rows.result = some result ∧ rows.withdrawal = none
  | .withdrawal reason =>
    rows.withdrawal = some ⟨requestId, reason⟩ ∧ rows.result = none

def Single : Prop := rows.result = none ∨ rows.withdrawal = none

variable {rows : TestRows} {requestId : String} {document : Document}

theorem write_tells {after : TestRows} (h : rows.write requestId document = .written after) :
    after.Tells requestId document ∧ after.request = rows.request := by
  revert h
  fun_cases write rows requestId document with (intro h; cases h)
  | case4 _ _ hother hnew | case9 _ _ hother hnew =>
    exact ⟨⟨rfl, Option.not_isSome_iff_eq_none.mp hother⟩, rfl⟩
  | case5 _ hother _ hexisting | case10 _ _ hother hexisting =>
    exact ⟨⟨hexisting, Option.not_isSome_iff_eq_none.mp hother⟩, rfl⟩

theorem single_of_tells (h : rows.Tells requestId document) : rows.Single := by
  cases document with
  | request request => exact absurd h id
  | result result => exact Or.inr h.right
  | withdrawal reason => exact Or.inl h.right

theorem request_of_conflict (h : rows.write requestId document = .conflict) :
    rows.request.isSome = true := by
  cases hrequest : rows.request with
  | some request => rfl
  | none =>
    cases document with
    | request request => cases h
    | _ =>
      rw [write, hrequest] at h
      cases h

theorem exists_write (hrequest : rows.request.isSome) (hkind : document.isOutcome = true)
    (h : rows.final = false ∨ rows.Tells requestId document) :
    exists after, rows.write requestId document = .written after := by
  have hknown : rows.request.isNone = false := by
    rw [← Option.not_isSome, hrequest]
    rfl
  rcases h with hopen | htells
  · have hparts := Bool.or_eq_false_iff.mp hopen
    cases document with
    | request request => cases hkind
    | result result =>
      simp only [write, hknown, hparts.right]
      cases hresult : rows.result with
      | none => exact ⟨_, rfl⟩
      | some existing =>
        rw [hresult] at hparts
        cases hparts.left
    | withdrawal reason =>
      simp only [write, hknown, hparts.left]
      cases hwithdrawal : rows.withdrawal with
      | none => exact ⟨_, rfl⟩
      | some existing =>
        rw [hwithdrawal] at hparts
        cases hparts.right
  · cases document with
    | request request => exact absurd htells id
    | _ =>
      exact ⟨rows, by simp [write, hknown, htells.left, htells.right]⟩

end TestRows

/-!
## The process
-/

inductive Mode where
  | down
  | recovering
  | running
deriving DecidableEq

inductive Publishing where
  | row
  | attach
deriving DecidableEq

/-- Where a run task stands: created, in the executor call, past it with a
result to pool, or with its outcome recorded. -/
inductive RunPhase where
  | created
  | executing
  | pooling (result : TestResult)
  | writing
deriving DecidableEq

/-- A run task; `cancelled` while a cancel waits to be delivered. -/
structure RunTask where
  phase : RunPhase
  cancelled : Bool := false
deriving DecidableEq

/-- What a running process knows of one test: whether `recover` has still to go
over it, where its publish stands, its queue item, its run task, whether
`_tasks` has that task, and the reasons of the withdrawals that wait for it. -/
structure Memory where
  toRecover : Bool := false
  publishing : Option Publishing := none
  item : Option QueuedTest := none
  run : Option RunTask := none
  registered : Bool := false
  awaiting : List String := []
deriving DecidableEq

/-- One test: its log entry, its rows and the process's memory of it.
`returned` says that `submit_test` returned its id and `recorded` lists the
outcomes recorded so far. -/
structure Life where
  entry : LogEntry Document
  rows : TestRows := {}
  memory : Memory := {}
  returned : Bool := false
  recorded : List Document := []
deriving DecidableEq

namespace Life

variable (life : Life)

def waiting : Bool := life.entry.waiting

def unwritten : Bool := life.entry.unwritten

def outcome : Option Document := life.entry.outcome

def accepted : Option TestRequest :=
  match life.entry.request with
  | .request request => some request
  | _ => none

def row : Option TestRequest :=
  life.accepted.map fun request => { request with priority := some life.entry.priority.toNat }

variable (document : Document)

def record : Life :=
  { life with
    entry := { life.entry with outcome := some document }
    recorded := life.recorded ++ [document] }

def recordIfWaiting : Life :=
  if life.waiting then life.record document else life

def settle : Life := { life with entry := { life.entry with settled := true } }

def abort : Life := { life with entry := { life.entry with aborted := true } }

def lost : Life := { life with memory := {} }

/-- A new process goes over the entries that are neither aborted nor
settled. -/
def restarted : Life :=
  if life.entry.aborted || life.entry.settled then life
  else { life with memory := { toRecover := true } }

end Life

/-!
## The steps of one test
-/

/-- What the running process has of every test: its mode, the policy of its
queue and the arrivals counted there. -/
structure Process where
  mode : Mode
  policy : QueuePolicy
  arrivals : Nat := 0

/-- How a write to the blackboard ends: done, or raised before or after its
row was appended. -/
inductive CallEnd where
  | done
  | failed (appended : Bool)
deriving DecidableEq

/-- How `prepare` answers a replayed request. -/
inductive Prepared where
  | accepted
  | rejected (text : String)
  | raised
deriving DecidableEq

/-- How `attach_request` ends; an attached test may have builds to wait
for. -/
inductive AttachEnd where
  | attached (builds : Bool)
  | claimLost (text : String)
  | failed
deriving DecidableEq

/-- How the executor call ends, also where a cancel did not end it. -/
inductive ExecutorEnd where
  | returned (result : TestResult)
  | raised (error : String)
deriving DecidableEq

inductive LifeOp where
  | recoverWritten
  | recoverFinal
  | recoverPrepare (answer : Prepared)
  | publishRow (ending : CallEnd)
  | publishAttach (ending : AttachEnd)
  | beginRun
  | executed (ending : ExecutorEnd)
  | pooled (result : TestResult)
  | runCancelled
  | runEnd
  | buildsReady (now : Rat)
  | buildsEnded (result : TestResult)
  | withdraw (reason : String)
  | resume
  | writeOutcome (document : Document) (ending : CallEnd)
deriving DecidableEq

def executorError (requestId error : String) : TestResult where
  requestId := requestId
  validity := .measurementFailed
  failure := some .infra
  failureReason := some ("executor error: " ++ error)

namespace Life

variable (policy : QueuePolicy)

def submitted (request : TestRequest) (sequence : Nat) (now : Rat) : Life where
  entry := {
    requestId := request.requestId
    branch := request.branch
    sequence := sequence
    request := .request request
    priority := policy.priorityOf request
    queuedAt := now }
  memory := { publishing := some .row }

variable (life : Life)

def recoverWritten : Option Life :=
  if life.memory.toRecover ∧ life.outcome.isSome then
    some { life with memory := {} }
  else none

def recoverFinal : Option Life :=
  if life.memory.toRecover ∧ life.outcome.isNone ∧ life.rows.final then
    some { life.settle with memory := {} }
  else none

def recoverPrepare (answer : Prepared) : Option Life :=
  if life.memory.toRecover ∧ life.outcome.isNone ∧ ¬ life.rows.final then
    match answer with
    | .accepted => some { life with memory := { publishing := some .row } }
    | .rejected text =>
      some { life.record (.withdrawal ("not recoverable: " ++ text)) with
        memory := {} }
    | .raised => some life
  else none

/-- The request row, with the priority of the entry; whatever is raised aborts
the entry. -/
def publishRow (ending : CallEnd) : Option Life :=
  match life.memory.publishing, life.row with
  | some .row, some row =>
    match ending with
    | .done =>
      if life.rows.request = none ∨ life.rows.request = some row then
        some { life with
          rows := { life.rows with request := some row }
          memory := { publishing := some .attach } }
      else some { life.abort with memory := {} }
    | .failed appended =>
      some { life.abort with
        rows :=
          if appended && life.rows.request.isNone then
            { life.rows with request := some row }
          else life.rows
        memory := {} }
  | _, _ => none

/-- The claim, for a request that names an intent, and `_enqueue`. -/
def publishAttach (process : Process) (ending : AttachEnd) : Option Life :=
  match life.memory.publishing, life.accepted with
  | some .attach, some request =>
    match ending with
    | .attached builds =>
      some { life with
        memory := { item := some {
            request := request
            priority := life.entry.priority
            seq := process.arrivals + 1
            queuedAt := life.entry.queuedAt
            state := if builds then .pendingBuild else .queued } }
        returned := life.returned || decide (process.mode = .running) }
    | .claimLost text =>
      if request.intentFingerprint.isSome then
        some { life.record (.withdrawal ("claim lost: " ++ text)) with
          memory := {} }
      else none
    | .failed =>
      if request.intentFingerprint.isSome then
        some { life.abort with memory := {} }
      else none
  | _, _ => none

def reprioritised (life : Life) : Life :=
  { life with
    memory := { life.memory with item := life.memory.item.map (QueuedTest.reprioritise policy) } }

/-- What `_pump` does with the test `take` gave it. -/
def started : Life :=
  { life with
    memory := { life.memory with
      item := life.memory.item.map fun item => { item with state := .running }
      run := some ⟨.created, false⟩
      registered := true } }

def beginRun : Option Life :=
  match life.memory.run with
  | some ⟨.created, false⟩ =>
    some { life with
      memory := { life.memory with run := some ⟨.executing, false⟩ } }
  | _ => none

variable (requestId : String)

/-- The executor call ends; a cancel that came during it is spent. -/
def executed (ending : ExecutorEnd) : Option Life :=
  match life.memory.run, ending with
  | some ⟨.executing, _⟩, .returned result =>
    some { life with
      memory := { life.memory with run := some ⟨.pooling result, false⟩ } }
  | some ⟨.executing, _⟩, .raised error =>
    some { life.record (.result (executorError requestId error)) with
      memory := { life.memory with run := some ⟨.writing, false⟩ } }
  | _, _ => none

variable (result : TestResult)

def pooled : Option Life :=
  match life.memory.run with
  | some ⟨.pooling _, false⟩ =>
    some { life.record (.result { result with requestId := requestId }) with
      memory := { life.memory with run := some ⟨.writing, false⟩ } }
  | _ => none

/-- The `finally` of `_run`. -/
def runLeft : Life :=
  { life with
    memory := { life.memory with run := none, registered := false, item := none } }

/-- The cancel ends the task; one cancelled before its first step never enters
its `try`. -/
def runCancelled : Option Life :=
  match life.memory.run with
  | some ⟨.created, true⟩ =>
    some { life with memory := { life.memory with run := none } }
  | some ⟨_, true⟩ => some life.runLeft
  | _ => none

def runEnd : Option Life :=
  match life.memory.run with
  | some ⟨.writing, _⟩ => some life.runLeft
  | _ => none

def buildsReady (now : Rat) : Option Life :=
  match life.memory.item with
  | some item =>
    if item.state = .pendingBuild then
      some { life with
        memory := { life.memory with
          item := some { item with state := .queued, queuedAt := now } } }
    else none
  | none => none

def buildsEnded : Option Life :=
  match life.memory.item with
  | some item =>
    if item.state = .pendingBuild then
      some { life.recordIfWaiting (.result { result with requestId := requestId }) with
        memory := { life.memory with item := none } }
    else none
  | none => none

/-- `_withdraw`, up to where it waits for the cancelled task. -/
def withdraw (reason : String) : Life :=
  if life.waiting then
    if life.memory.registered then
      { life with
        memory := { life.memory with
          item := none
          registered := false
          run := life.memory.run.map fun run => { run with cancelled := true }
          awaiting := life.memory.awaiting ++ [reason] } }
    else
      { life.record (.withdrawal reason) with
        memory := { life.memory with item := none } }
  else life

/-- `_withdraw`, after the cancelled task has ended. -/
def resume : Option Life :=
  match life.memory.awaiting, life.memory.run with
  | reason :: rest, none =>
    some { life.recordIfWaiting (.withdrawal reason) with
      memory := { life.memory with awaiting := rest } }
  | _, _ => none

/-- One try of `_write_outcome`; a conflict settles the entry too. -/
def writeOutcome (document : Document) : CallEnd -> Option Life
  | .done =>
    match life.rows.write requestId document with
    | .written rows => some { life.settle with rows := rows }
    | .conflict => some life.settle
    | .unknown => none
  | .failed false => some life
  | .failed true =>
    match life.rows.write requestId document with
    | .written rows => some { life with rows := rows }
    | _ => none

def step (process : Process) : LifeOp -> Option Life
  | .recoverWritten => life.recoverWritten
  | .recoverFinal => life.recoverFinal
  | .recoverPrepare answer => life.recoverPrepare answer
  | .publishRow ending => life.publishRow ending
  | .publishAttach ending => life.publishAttach process ending
  | .beginRun => life.beginRun
  | .executed ending => life.executed requestId ending
  | .pooled result => life.pooled requestId result
  | .runCancelled => life.runCancelled
  | .runEnd => life.runEnd
  | .buildsReady now => life.buildsReady now
  | .buildsEnded result => life.buildsEnded requestId result
  | .withdraw reason =>
    -- `_publish` and `recover` run without a withdrawal in between.
    if process.mode = .running ∧ life.memory.publishing = none then
      some (life.withdraw reason)
    else none
  | .resume => life.resume
  | .writeOutcome document ending =>
    if process.mode ≠ .down ∧ document ∈ life.recorded then
      life.writeOutcome requestId document ending
    else none

end Life

end Toolbox
end Hyperloom
