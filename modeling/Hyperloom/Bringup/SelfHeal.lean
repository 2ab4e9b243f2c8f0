import Hyperloom.Library.Machine
import Hyperloom.State.TaskRegistry

/-!
# The self-heal passes

The reconciler and the dispatcher's pump heal the database with the same two
transactions: `reclaim_dead_running` fails the running tasks whose processes
are gone, then `reap_dead_holders` drops the lane rows of dead processes.
Either may fail with a database error, which is logged and skipped, and both
probe the processes anew, row by row.
-/

namespace Hyperloom
namespace Bringup

open Library Storage Bus State

/-- The probes one transaction makes, by the row they are made for. -/
abbrev Probes := LeaseRow -> Probe

/-- A pass whose reclaim is over and whose reap is still to come: the tasks that
were running when it began, and the probes its reclaim committed on. -/
structure HealPass where
  running : List String
  probes : Option Probes

structure HealState where
  tasks : Tasks
  leases : Leases
  passes : List HealPass

def runningIds (tasks : Tasks) : List String := (running tasks).map TaskRow.taskId

inductive HealOp where
  | reclaim (probes : Probes) (reason : String) (now : Iso)
  | reclaimFails
  | reap (pass : Nat) (gpuTasks : List String) (probes : Probes)
  | reapFails (pass : Nat)

variable (s : HealState)

def healStep : HealOp -> Option HealState
  | .reclaim probes reason now =>
    some { s with
      tasks := (reclaimDeadRunning s.tasks s.leases probes reason now).snd
      passes := s.passes ++ [⟨runningIds s.tasks, some probes⟩] }
  | .reclaimFails =>
    some { s with passes := s.passes ++ [⟨runningIds s.tasks, none⟩] }
  | .reap pass gpuTasks probes =>
    if pass < s.passes.length then
      some { s with
        leases := (reapDeadHolders s.leases gpuTasks probes).snd
        passes := s.passes.eraseIdx pass }
    else none
  | .reapFails pass =>
    if pass < s.passes.length then
      some { s with passes := s.passes.eraseIdx pass }
    else none

def healMachine : Machine HealState HealOp where
  init s := s.passes = []
  step := healStep

/-!
## Running tasks
-/

def RunningIn (tasks : Tasks) (taskId : String) : Prop :=
  exists task, task ∈ tasks ∧ task.taskId = taskId ∧ task.state = .running

theorem mem_runningIds {tasks : Tasks} {taskId : String} :
    taskId ∈ runningIds tasks <-> RunningIn tasks taskId := by
  unfold runningIds RunningIn
  rw [List.mem_map]
  apply exists_congr
  intro task
  rw [mem_running, and_assoc]
  apply and_congr_right
  intro _
  exact and_comm

variable {probes : Probes}

theorem runningIn_reclaimDeadRunning {tasks : Tasks} {leases : Leases}
    {reason : String} {now : Iso} {taskId : String}
    (h : RunningIn (reclaimDeadRunning tasks leases probes reason now).snd taskId) :
    exists task, task ∈ tasks ∧ task.taskId = taskId ∧
      task.state = .running ∧ reclaims leases probes task = false := by
  rcases h with ⟨task, htask, hid, hrunning⟩
  rcases mem_reclaimDeadRunning.mp htask with ⟨hold, hkept⟩ | ⟨old, _, _, rfl⟩
  · exact ⟨task, hold, hid, hrunning, hkept⟩
  · cases hrunning

/-!
## Reclaiming before reaping
-/

/-- The condition under which a pass leaves no running task without its lane
rows: a reclaim judges the rows of one running task alike, and of the tasks that
were running when its pass began a reap takes only rows the reclaim committed on
and found dead. -/
def ProvesFirst : HealOp -> Prop
  | .reclaim probes _ _ =>
    forall row other, row ∈ s.leases -> other ∈ s.leases ->
      row.taskId = other.taskId -> 0 < row.pid -> 0 < other.pid -> RunningIn s.tasks row.taskId ->
        holderIsDead (probes row) row = holderIsDead (probes other) other
  | .reap pass gpuTasks probes =>
    forall row, row ∈ s.leases -> reaps gpuTasks probes row = true ->
      forall own, s.passes[pass]? = some own -> row.taskId ∈ own.running ->
        exists judged, own.probes = some judged ∧ holderIsDead (judged row) row = true
  | _ => True

def Cleared (probes : Probes) : Prop :=
  forall row, row ∈ s.leases -> RunningIn s.tasks row.taskId ->
    holderIsDead (probes row) row = false

structure PassCleared (s : HealState) (pass : HealPass) : Prop where
  seen : forall taskId, RunningIn s.tasks taskId -> taskId ∈ pass.running
  cleared : forall probes, pass.probes = some probes -> Cleared s probes

def PassesCleared : Prop := forall pass, pass ∈ s.passes -> PassCleared s pass

structure Shrinks (s t : HealState) : Prop where
  running : forall taskId, RunningIn t.tasks taskId -> RunningIn s.tasks taskId
  rows : forall row, row ∈ t.leases -> row ∈ s.leases

variable {s t : HealState}

theorem Cleared.of_shrinks (h : Cleared s probes) (hshrinks : Shrinks s t) : Cleared t probes := by
  intro row hrow hrunning
  exact h row (hshrinks.rows row hrow) (hshrinks.running row.taskId hrunning)

variable {pass : HealPass}

theorem PassCleared.of_shrinks (h : PassCleared s pass) (hshrinks : Shrinks s t) :
    PassCleared t pass where
  seen := fun taskId hrunning => h.seen taskId (hshrinks.running taskId hrunning)
  cleared := fun probes hprobes => (h.cleared probes hprobes).of_shrinks hshrinks

variable {op : HealOp}

/-- A committed reclaim that judges the rows of a task alike clears the running
tasks: one dead row would have failed its task. -/
theorem cleared_reclaim {reason : String} {now : Iso}
    (hcond : ProvesFirst s (.reclaim probes reason now))
    (h : healStep s (.reclaim probes reason now) = some t) : Cleared t probes := by
  intro row hrow hrunning
  cases h
  rcases runningIn_reclaimDeadRunning hrunning with ⟨task, htask, hid, hstate, hkept⟩
  cases hdead : holderIsDead (probes row) row with
  | false => rfl
  | true =>
    have hpos := holderIsDead_pid_pos hdead
    have hall : forall other, other ∈ processRows s.leases task.taskId ->
        holderIsDead (probes other) other = true := by
      intro other hother
      rcases mem_processRows.mp hother with ⟨hmem, hother, hotherPos⟩
      rw [← hcond row other hrow hmem (hid.symm.trans hother.symm) hpos
        hotherPos ⟨task, htask, hid, hstate⟩]
      exact hdead
    have hreclaims : reclaims s.leases probes task = true :=
      reclaims_eq_true.mpr ⟨hstate, ⟨row, mem_processRows.mpr ⟨hrow, hid.symm, hpos⟩⟩, hall⟩
    rw [hreclaims] at hkept
    cases hkept

def begins (s : HealState) : HealOp -> Option HealPass
  | .reclaim probes _ _ => some ⟨runningIds s.tasks, some probes⟩
  | .reclaimFails => some ⟨runningIds s.tasks, none⟩
  | _ => none

structure KeepsRunning (s t : HealState) : Prop where
  running : forall taskId, RunningIn t.tasks taskId -> RunningIn s.tasks taskId
  rows : forall row, row ∈ s.leases -> RunningIn t.tasks row.taskId -> row ∈ t.leases

theorem KeepsRunning.refl (s : HealState) : KeepsRunning s s :=
  ⟨fun _ hrunning => hrunning, fun _ hrow _ => hrow⟩

theorem KeepsRunning.trans {u : HealState} (hst : KeepsRunning s t)
    (htu : KeepsRunning t u) : KeepsRunning s u := by
  constructor
  · intro taskId hrunning
    exact hst.running taskId (htu.running taskId hrunning)
  · intro row hrow hrunning
    exact htu.rows row (hst.rows row hrow (htu.running row.taskId hrunning)) hrunning

section

variable (h : healStep s op = some t)

include h

theorem shrinks_step : Shrinks s t := by
  cases op with
  | reclaim probes reason now =>
    cases h
    constructor
    · intro taskId hrunning
      rcases runningIn_reclaimDeadRunning hrunning with ⟨task, htask, hid, hstate, _⟩
      exact ⟨task, htask, hid, hstate⟩
    · intro row hrow
      exact hrow
  | reclaimFails =>
    cases h
    exact ⟨fun _ hrunning => hrunning, fun _ hrow => hrow⟩
  | reap pass gpuTasks probes =>
    rcases some_of_when h with ⟨_, rfl⟩
    exact ⟨fun _ hrunning => hrunning, fun _ hrow => (mem_reapDeadHolders.mp hrow).left⟩
  | reapFails pass =>
    rcases some_of_when h with ⟨_, rfl⟩
    exact ⟨fun _ hrunning => hrunning, fun _ hrow => hrow⟩

theorem mem_passes_step (hmem : pass ∈ t.passes) : pass ∈ s.passes ∨ begins s op = some pass := by
  cases op with
  | reap pass gpuTasks fresh | reapFails pass =>
    rcases some_of_when h with ⟨_, rfl⟩
    exact Or.inl (List.mem_of_mem_eraseIdx hmem)
  | _ =>
    cases h
    rcases mem_concat.mp hmem with hold | rfl
    · exact Or.inl hold
    · exact Or.inr rfl

variable (hcond : ProvesFirst s op)

include hcond

theorem passCleared_begins (hbegins : begins s op = some pass) : PassCleared t pass := by
  have hshrinks := shrinks_step h
  have hseen : forall taskId, RunningIn t.tasks taskId ->
      taskId ∈ runningIds s.tasks := fun taskId hrunning =>
    mem_runningIds.mpr (hshrinks.running taskId hrunning)
  cases op with
  | reclaim probes reason now =>
    cases hbegins
    refine ⟨hseen, ?_⟩
    intro judged hjudged
    cases hjudged
    exact cleared_reclaim hcond h
  | reclaimFails =>
    cases hbegins
    refine ⟨hseen, ?_⟩
    intro judged hjudged
    cases hjudged
  | _ => cases hbegins

variable (hs : PassesCleared s)

include hs

theorem passesCleared_step : PassesCleared t := by
  intro pass hmem
  rcases mem_passes_step h hmem with hold | hbegins
  · exact (hs pass hold).of_shrinks (shrinks_step h)
  · exact passCleared_begins h hcond hbegins

theorem removed_not_running {row : LeaseRow} (hrow : row ∈ s.leases)
    (hgone : ¬ row ∈ t.leases) : ¬ RunningIn t.tasks row.taskId := by
  cases op with
  | reapFails pass =>
    rcases some_of_when h with ⟨_, rfl⟩
    exact absurd hrow hgone
  | reap pass gpuTasks probes =>
    rcases some_of_when h with ⟨hpass, rfl⟩
    intro hrunning
    cases hreaps : reaps gpuTasks probes row with
    | false => exact hgone (mem_reapDeadHolders.mpr ⟨hrow, hreaps⟩)
    | true =>
      have hown := List.getElem?_eq_getElem hpass
      have hcleared := hs _ (List.mem_of_getElem? hown)
      rcases hcond row hrow hreaps _ hown
        (hcleared.seen row.taskId hrunning) with ⟨judged, hjudged, hdead⟩
      rw [hcleared.cleared judged hjudged row hrow hrunning] at hdead
      cases hdead
  | _ =>
    cases h
    exact absurd hrow hgone

theorem keepsRunning_step : KeepsRunning s t := by
  constructor
  · exact (shrinks_step h).running
  · intro row hrow hrunning
    by_cases hmem : row ∈ t.leases
    · exact hmem
    · exact absurd hrunning (removed_not_running h hcond hs hrow hmem)

end

/-!
## Whole runs
-/

theorem reachable_passesCleared (hs : healMachine.ReachableWhere ProvesFirst s) :
    PassesCleared s := by
  refine hs.invariant ?_ ?_
  · intro start hstart pass hmem
    rw [hstart] at hmem
    cases hmem
  · intro before op after hbefore hcond hstep
    exact passesCleared_step hstep hcond hbefore

theorem keepsRunning_run {trace : List HealOp} (hs : healMachine.ReachableWhere ProvesFirst s)
    (hrun : healMachine.Run ProvesFirst s trace t) : KeepsRunning s t :=
  hrun.relates KeepsRunning.refl (fun _ _ _ hst htu => hst.trans htu)
    (fun _ _ _ hI hcond hstep => passesCleared_step hstep hcond hI)
    (fun _ _ _ hI hcond hstep => keepsRunning_step hstep hcond hI) (reachable_passesCleared hs)

/-- In every run whose passes prove a holder dead before they reap its rows, a
row is removed only once its task has left the running state, and a running
task with a recorded process keeps one. -/
theorem no_orphaned_running (s : HealState) (hs : healMachine.ReachableWhere ProvesFirst s) :
    (forall op t, ProvesFirst s op -> healMachine.step s op = some t ->
      forall row, row ∈ s.leases -> ¬ row ∈ t.leases -> ¬ RunningIn t.tasks row.taskId) ∧
    (forall trace t, healMachine.Run ProvesFirst s trace t ->
      forall taskId, RunningIn t.tasks taskId ->
        (exists row, row ∈ processRows s.leases taskId) ->
          exists row, row ∈ processRows t.leases taskId) := by
  constructor
  · intro op t hcond hstep row hrow hgone
    exact removed_not_running hstep hcond (reachable_passesCleared hs) hrow hgone
  · intro trace t hrun taskId hrunning hrow
    rcases hrow with ⟨row, hrow⟩
    rcases mem_processRows.mp hrow with ⟨hmem, hid, hpos⟩
    have hrowRunning : RunningIn t.tasks row.taskId := by
      rw [hid]
      exact hrunning
    have hkept := (keepsRunning_run hs hrun).rows row hmem hrowRunning
    exact ⟨row, mem_processRows.mpr ⟨hkept, hid, hpos⟩⟩

def crashedRow : LeaseRow where
  lane := .known .buildLane
  holderId := "t"
  taskId := "t"
  action := "targeted_build"
  pid := 7
  ownerScope := "boot:7:1"
  acquiredAt := ⟨0⟩
  expiresAt := ⟨0⟩

def crashedTask : TaskRow where
  taskId := "t"
  kind := "targeted_build"
  state := .running
  requiresLanes := ["build_lane"]
  createdAt := ⟨0⟩
  updatedAt := ⟨0⟩

def crashedStart : HealState where
  tasks := { rows := [crashedTask], unique := List.nodup_singleton _ }
  leases := { rows := [crashedRow], unique := List.nodup_singleton _ }
  passes := []

def allDead : Probes :=
  fun _ => { localScope := "boot:7:1", pidAlive := fun _ => false }

theorem no_orphaned_running_crashed :
    exists t, healMachine.Run ProvesFirst crashedStart
        [.reclaim allDead "dead_holder_pump" ⟨1⟩, .reap 0 [] allDead] t ∧
      ¬ crashedRow ∈ t.leases ∧ ¬ RunningIn t.tasks "t" := by
  let reclaimedState : HealState :=
    { crashedStart with
      tasks := (reclaimDeadRunning crashedStart.tasks crashedStart.leases allDead
        "dead_holder_pump" ⟨1⟩).snd
      passes := [⟨["t"], some allDead⟩] }
  have hreclaim : ProvesFirst crashedStart (.reclaim allDead "dead_holder_pump" ⟨1⟩) := by
    intro row other hrow hother _ _ _ _
    rw [List.mem_singleton.mp hrow, List.mem_singleton.mp hother]
  have hreap : ProvesFirst reclaimedState (.reap 0 [] allDead) := by
    intro row hrow _ own hown _
    cases hown
    refine ⟨allDead, rfl, ?_⟩
    rw [List.mem_singleton.mp hrow]
    decide
  have hfirst : healMachine.Run ProvesFirst crashedStart
      [.reclaim allDead "dead_holder_pump" ⟨1⟩] reclaimedState :=
    .cons hreclaim rfl (.nil _)
  have hgone : ¬ crashedRow ∈ (reapDeadHolders reclaimedState.leases [] allDead).snd := by decide
  refine ⟨_, hfirst.append (.cons hreap rfl (.nil _)), hgone, ?_⟩
  exact (no_orphaned_running reclaimedState
    ⟨crashedStart, _, rfl, hfirst⟩).left (.reap 0 [] allDead) _ hreap rfl
    crashedRow (List.mem_singleton.mpr rfl) hgone

/-- A reclaim that fails with a database error does not stop the reap after it:
the running task loses its only lane row. -/
theorem orphaned_running :
    exists s op t row, healMachine.Reachable s ∧
      healMachine.step s op = some t ∧ row ∈ s.leases ∧ ¬ row ∈ t.leases ∧
      RunningIn t.tasks row.taskId ∧ processRows t.leases row.taskId = [] := by
  refine ⟨{ crashedStart with passes := [⟨["t"], none⟩] }, .reap 0 [] allDead, _,
    crashedRow, ⟨crashedStart, [.reclaimFails], rfl, .cons trivial rfl (.nil _)⟩, rfl,
    List.mem_singleton.mpr rfl, ?_, ?_, ?_⟩
  · decide
  · exact ⟨_, List.mem_singleton.mpr rfl, rfl, rfl⟩
  · decide

end Bringup
end Hyperloom
