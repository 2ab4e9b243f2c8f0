import Hyperloom.Library.Whitespace
import Hyperloom.Bus.ResourceLock

/-!
# The task registry

The operations of `TaskRegistry` that move a delegated task through its states
and read the table back.
-/

namespace Hyperloom
namespace State

open Library Storage Bus

inductive TaskError where
  | taskNotFound (taskId : String)
  | illegalTransition (taskId : String) (current target : TaskState)
  | illegalExtension (taskId : String) (current : TaskState)
  | rowMissing
deriving DecidableEq

/-!
## Moving a task
-/

def moved (row : TaskRow) (newState : TaskState) (evidence : Evidence) (now : Iso) : TaskRow :=
  { row with
    state := newState
    history := row.history ++ [.moved row.state newState now evidence]
    updatedAt := now }

variable (tasks : Tasks)

def transition (taskId : String) (newState : TaskState)
    (evidence : Evidence) (now : Iso) : Except TaskError Tasks :=
  match tasks.find? taskId with
  | none => .error (.taskNotFound taskId)
  | some row =>
    if newState ∈ row.state.transitions then
      .ok (tasks.updateKey taskId (fun row => moved row newState evidence now) (fun _ => rfl))
    else .error (.illegalTransition taskId row.state newState)

/-- `append_completion_evidence`: neither the state nor `updated_at` moves. -/
def appendCompletionEvidence (taskId : String)
    (evidence : Evidence) (now : Iso) : Except TaskError Tasks :=
  match tasks.find? taskId with
  | none => .error .rowMissing
  | some _ =>
    .ok (tasks.updateKey taskId (fun row =>
        { row with history := row.history ++ [.completion now evidence] }) (fun _ => rfl))

/-- `_MAX_PROGRESS_NOTES`: how many progress notes a history retains. -/
def maxProgressNotes : Nat := 120

def isProgressNote : HistoryEntry -> Bool
  | .progress _ _ => true
  | .other entry => (entry.get? "progress").isSome
  | .dispatch _ _ _ => false
  | .moved _ _ _ _ => false
  | .completion _ _ => false

/-- The loop of `_drop_oldest_progress_notes`: skip notes while a surplus is
left. -/
def skipNotes : Nat -> List HistoryEntry -> List HistoryEntry
  | _, [] => []
  | surplus, entry :: rest =>
    if 0 < surplus ∧ isProgressNote entry = true then
      skipNotes (surplus - 1) rest
    else entry :: skipNotes surplus rest

def dropOldestProgressNotes (history : List HistoryEntry) (keep : Nat) : List HistoryEntry :=
  if history.countP isProgressNote ≤ keep then history
  else skipNotes (history.countP isProgressNote - keep) history

def noted (row : TaskRow) (note : Evidence) (now : Iso) : TaskRow :=
  { row with
    history := dropOldestProgressNotes (row.history ++ [.progress note now]) maxProgressNotes }

/-- `record_progress`: a missing row is passed over. -/
def recordProgress (taskId : String) (note : Evidence) (now : Iso) : Tasks :=
  tasks.updateKey taskId (fun row => noted row note now) (fun _ => rfl)

/-- `extend_lease`: grow the `lease_ttl_sec` of a running task. -/
def extendLease (taskId : String) (extraSec : Int) : Except TaskError (Int × Tasks) :=
  match tasks.find? taskId with
  | none => .error (.taskNotFound taskId)
  | some row =>
    if row.state = .running then
      let newTtl := row.leaseTtlSec + max 0 extraSec
      .ok (newTtl, tasks.updateKey taskId
        (fun row => { row with leaseTtlSec := newTtl }) (fun _ => rfl))
    else .error (.illegalExtension taskId row.state)

/-- `running`, least recently updated first. -/
def running : List TaskRow :=
  (tasks.rows.filter (fun row => row.state = .running)).insertionSort
    (fun a b => a.updatedAt.micros ≤ b.updatedAt.micros)

/-- `queued`, oldest first. -/
def queued : List TaskRow :=
  (tasks.rows.filter (fun row => row.state = .queued)).insertionSort
    (fun a b => a.createdAt.micros ≤ b.createdAt.micros)

def cancelQueuedRow (reason : String) (now : Iso) (row : TaskRow) : TaskRow :=
  moved row .cancelled [("reason", .str reason)] now

theorem cancelQueuedRow_taskId (reason : String) (now : Iso) (row : TaskRow) :
    (cancelQueuedRow reason now row).taskId = row.taskId :=
  rfl

/-- Whether `cancel_family` cancels a row: it is queued, of one of the kinds,
and not spared. -/
def cancelsFamily (familyKinds excludeTaskIds : List String) (row : TaskRow) : Bool :=
  decide (row.state = .queued) && (decide (row.kind ∈ familyKinds) &&
    !decide (strip row.taskId ∈ (excludeTaskIds.map strip).filter (fun taskId => taskId ≠ "")))

/-- `cancel_family`: the cancelled ids and the table. -/
def cancelFamily (familyKinds : List String) (reason : String)
    (excludeTaskIds : List String) (now : Iso) : List String × Tasks :=
  ((tasks.rows.filter (cancelsFamily familyKinds excludeTaskIds)).map TaskRow.taskId,
    tasks.updateWhere (cancelsFamily familyKinds excludeTaskIds)
      (cancelQueuedRow reason now) (cancelQueuedRow_taskId reason now))

/-- Whether `cancel_if_queued` cancels a row. -/
def cancelsIfQueued (taskId kind : String) (row : TaskRow) : Bool :=
  decide (row.taskId = taskId) && (decide (row.kind = kind) && decide (row.state = .queued))

/-- `cancel_if_queued`: whether the task was cancelled, and the table. -/
def cancelIfQueued (taskId kind reason : String) (now : Iso) : Bool × Tasks :=
  (tasks.rows.any (cancelsIfQueued taskId kind), tasks.updateWhere (cancelsIfQueued taskId kind)
      (cancelQueuedRow reason now) (cancelQueuedRow_taskId reason now))

variable (allowedKinds : List String)

/-- Whether `cancel_queued` cancels a row: it is queued and its kind is not
allowed. -/
def cancels (row : TaskRow) : Bool :=
  decide (row.state = .queued) &&
    !decide (strip row.kind ∈ (allowedKinds.map strip).filter (fun kind => kind ≠ ""))

/-- `cancel_queued`: the cancelled ids and the table. -/
def cancelQueued (reason : String) (now : Iso) : List String × Tasks :=
  ((tasks.rows.filter (cancels allowedKinds)).map TaskRow.taskId,
    tasks.updateWhere (cancels allowedKinds)
      (fun row => moved row .cancelled [("reason", .str reason)] now) (fun _ => rfl))

/-!
## Failing the tasks of dead holders
-/

variable (leases : Leases)

def processRows (taskId : String) : List LeaseRow :=
  leases.rows.filter (fun row =>
    decide (row.taskId = taskId) && decide (0 < row.pid))

variable (probe : LeaseRow -> Probe)

/-- Whether `reclaim_dead_running` fails a row: it is running, some lane row
records a process for it, and every such process is found dead. -/
def reclaims (row : TaskRow) : Bool :=
  decide (row.state = .running) && (!(processRows leases row.taskId).isEmpty &&
      (processRows leases row.taskId).all (fun lease => holderIsDead (probe lease) lease))

/-- The `dead_pid` the evidence names: that of the first lane row. -/
def deadPid (row : TaskRow) : Int :=
  ((processRows leases row.taskId).head?.map LeaseRow.pid).getD 0

variable (reason : String) (now : Iso)

def reclaimed (row : TaskRow) : TaskRow :=
  moved row .failed [("reason", .str reason), ("dead_pid", .int (deadPid leases row))] now

theorem reclaimed_taskId (row : TaskRow) : (reclaimed leases reason now row).taskId = row.taskId :=
  rfl

/-- `reclaim_dead_running`: the failed ids and the table.  Every lane row is
judged by a probe of its own. -/
def reclaimDeadRunning : List String × Tasks :=
  ((tasks.rows.filter (reclaims leases probe)).map TaskRow.taskId,
    tasks.updateWhere (reclaims leases probe) (reclaimed leases reason now)
      (reclaimed_taskId leases reason now))

/-!
## What the operations do
-/

variable {tasks : Tasks} {row : TaskRow}

theorem mem_running : row ∈ running tasks <-> row ∈ tasks ∧ row.state = .running := by
  unfold running
  rw [List.mem_insertionSort, List.mem_filter, decide_eq_true_eq]
  rfl

variable {taskId : String} {leases : Leases}

theorem mem_processRows {row : LeaseRow} :
    row ∈ processRows leases taskId <-> row ∈ leases ∧ row.taskId = taskId ∧ 0 < row.pid := by
  unfold processRows
  rw [List.mem_filter, Bool.and_eq_true, decide_eq_true_eq, decide_eq_true_eq]
  rfl

theorem reclaims_eq_true {probe : LeaseRow -> Probe} :
    reclaims leases probe row = true <-> row.state = .running ∧
      (exists lease, lease ∈ processRows leases row.taskId) ∧
      forall lease, lease ∈ processRows leases row.taskId ->
        holderIsDead (probe lease) lease = true := by
  unfold reclaims
  rw [Bool.and_eq_true, Bool.and_eq_true, decide_eq_true_eq, List.all_eq_true]
  apply and_congr_right
  intro _
  apply and_congr_left
  intro _
  cases processRows leases row.taskId with
  | nil => simp
  | cons first rest =>
    exact iff_of_true rfl ⟨first, List.mem_cons_self⟩

variable {now : Iso}

theorem mem_reclaimDeadRunning {probe : LeaseRow -> Probe} {reason : String} :
    row ∈ (reclaimDeadRunning tasks leases probe reason now).snd <->
      (row ∈ tasks ∧ reclaims leases probe row = false) ∨
      exists old, old ∈ tasks ∧ reclaims leases probe old = true ∧
        row = reclaimed leases reason now old :=
  @Table.mem_updateWhere _ _ _ tasks _ _ (reclaimed_taskId leases reason now) row

variable {evidence : Evidence} {after : Tasks} {newState : TaskState}

theorem transition_ok (h : transition tasks taskId newState evidence now = .ok after) :
    exists row, tasks.find? taskId = some row ∧ newState ∈ row.state.transitions ∧
      after = tasks.updateKey taskId
        (fun row => moved row newState evidence now) (fun _ => rfl) := by
  revert h
  fun_cases transition tasks taskId newState evidence now with (intro h; cases h)
  | case2 row hfound hallowed => exact ⟨row, hfound, hallowed, rfl⟩

theorem transition_of_find? (hfound : tasks.find? taskId = some row)
    (hallowed : newState ∈ row.state.transitions) :
    exists after, transition tasks taskId newState evidence now = .ok after := by
  unfold transition
  rw [hfound]
  exact ⟨_, if_pos hallowed⟩

theorem find?_transition {other : String}
    (h : transition tasks taskId newState evidence now = .ok after) :
    after.find? other = if other = taskId then
        (tasks.find? other).map (fun row => moved row newState evidence now)
      else tasks.find? other := by
  rcases transition_ok h with ⟨_, _, _, rfl⟩
  exact Table.find?_updateKey

/-!
## Leaving the queue

No operation puts a task back into the queue, so a task that was taken from it
stays taken.
-/

def InQueue (tasks : Tasks) (taskId : String) : Prop :=
  exists row, row ∈ tasks.rows ∧ row.taskId = taskId ∧ row.state = .queued

instance (tasks : Tasks) (taskId : String) : Decidable (InQueue tasks taskId) :=
  inferInstanceAs (Decidable (exists row, row ∈ tasks.rows ∧ _))

def Advances (tasks after : Tasks) : Prop :=
  forall taskId, InQueue after taskId -> InQueue tasks taskId

theorem Advances.refl (tasks : Tasks) : Advances tasks tasks := fun _ hqueued => hqueued

theorem advances_updateKey {f : TaskRow -> TaskRow} (hf : forall row, (f row).taskId = row.taskId)
    (hstate : forall row, (f row).state = .queued -> row.state = .queued) :
    Advances tasks (tasks.updateKey taskId f hf) := by
  intro other hqueued
  rcases hqueued with ⟨later, hlater, hid, hstateLater⟩
  rcases Table.mem_updateWhere.mp hlater with ⟨hold, _⟩ | ⟨old, hold, _, rfl⟩
  · exact ⟨later, hold, hid, hstateLater⟩
  · exact ⟨old, hold, (hf old).symm.trans hid, hstate old hstateLater⟩

theorem not_queued_of_mem_transitions {source target : TaskState}
    (h : target ∈ source.transitions) : target ≠ .queued := by
  intro hqueued
  rw [hqueued] at h
  cases source <;> exact absurd h (by decide)

section

variable (h : transition tasks taskId newState evidence now = .ok after)

include h

theorem advances_transition : Advances tasks after := by
  rcases transition_ok h with ⟨row, _, hallowed, rfl⟩
  apply advances_updateKey
  intro other hqueued
  exact absurd hqueued (not_queued_of_mem_transitions hallowed)

theorem not_inQueue_transition : ¬ InQueue after taskId := by
  intro hqueued
  rcases transition_ok h with ⟨row, _, hallowed, rfl⟩
  rcases hqueued with ⟨later, hlater, hid, hstate⟩
  rcases Table.mem_updateWhere.mp hlater with ⟨_, hother⟩ | ⟨old, _, _, rfl⟩
  · exact of_decide_eq_false hother hid
  · exact not_queued_of_mem_transitions hallowed hstate

end

theorem inQueue_of_claim (h : transition tasks taskId .running evidence now = .ok after) :
    InQueue tasks taskId := by
  rcases transition_ok h with ⟨row, hfound, hallowed, _⟩
  rcases Table.find?_eq_some.mp hfound with ⟨hrow, hid⟩
  exact ⟨row, hrow, hid, TaskState.mem_transitions_running.mp hallowed⟩

theorem advances_appendCompletionEvidence
    (h : appendCompletionEvidence tasks taskId evidence now = .ok after) :
    Advances tasks after := by
  unfold appendCompletionEvidence at h
  split at h
  · cases h
  injection h with h
  rw [← h]
  exact advances_updateKey _ (fun _ hqueued => hqueued)

end State
end Hyperloom
