import Hyperloom.Bus.LaneExclusion
import Hyperloom.State.RoundMutex
import Hyperloom.State.TaskRegistry

/-!
# Rounds and their lane rows

An open round holds a row of the `leases` table that names its holder and
expiry.  The machine below runs the round store next to the lane operations
and the `extend_lease` intent on one database, to say when the two tables
agree.
-/

namespace Hyperloom
namespace State

open Library Storage Bus

/-!
## The machine

An `extend_lease` intent takes two transactions: `TaskRegistry.extend_lease`
grows the task's budget, and later `heartbeat_by_task` refreshes its lanes.
Anything may happen in between.
-/

/-- An `extend_lease` intent whose budget was granted and whose lanes are still
to be refreshed. -/
structure Extension where
  taskId : String
  extraSec : Int
  newTtl : Int
deriving DecidableEq

/-- `int` of a float. -/
def truncate (x : Rat) : Int :=
  if 0 ≤ x then x.floor else x.ceil

/-- `remaining_sec` of the `extend_lease` handler: the task's budget less the
time it has run, but at least the extension and one second. -/
def remainingSec (extension : Extension) (row : Option TaskRow) (readAt : Unix) : Int :=
  let started : Unix :=
    match row with
    | none => 0
    | some row => (row.updatedAt.micros : Rat) / 1000000
  let runningSec : Rat := if 0 < started then max 0 (readAt - started) else 0
  max 1 (max extension.extraSec (truncate (extension.newTtl - runningSec)))

/-- The database of rounds, leases and tasks, the leases handed out, and the
granted extensions. -/
structure RoundLaneState where
  db : RoundDb
  tasks : Tasks
  issued : List Lease
  extensions : List Extension

/-- The lane operations a task or a self-heal pass performs; the round lane is
written by the round store only. -/
inductive TaskLaneOp where
  | acquireMany (request : AcquireRequest) (acquirer : Acquirer)
  | release (lease : Lease)
  | reapDeadHolders (gpuTasks : List String) (probe : LeaseRow -> Probe)

def TaskLaneOp.toLaneOp : TaskLaneOp -> LaneOp
  | acquireMany request acquirer => .acquireMany request acquirer
  | release lease => .release lease
  | reapDeadHolders gpuTasks probe => .reapDeadHolders gpuTasks probe

inductive RoundLaneOp where
  | round (call : RoundCall)
  | lane (op : TaskLaneOp)
  | extendLease (taskId : String) (extraSec : Int)
  | heartbeat (extension : Extension) (readAt now : Unix)
  | otherTaskWrite (tasks : Tasks)

namespace RoundLaneState

def withLeases (s : RoundLaneState) (leases : Leases) : RoundLaneState :=
  { s with db := { s.db with leases := leases } }

end RoundLaneState

variable (capacities : Capacities)

def roundLaneStep (s : RoundLaneState) : RoundLaneOp -> Option RoundLaneState
  | .round call => some { s with db := call.after s.db }
  | .lane op =>
    match laneStep capacities { leases := s.db.leases, issued := s.issued } op.toLaneOp with
    | none => none
    | some lanes =>
      some { s.withLeases lanes.leases with issued := lanes.issued }
  | .extendLease taskId extraSec =>
    match extendLease s.tasks taskId extraSec with
    | .error _ => some s
    | .ok (newTtl, tasks) =>
      some { s with tasks := tasks, extensions := ⟨taskId, extraSec, newTtl⟩ :: s.extensions }
  | .heartbeat extension readAt now =>
    if extension ∈ s.extensions then
      some (s.withLeases (heartbeatByTask s.db.leases extension.taskId
        (remainingSec extension (s.tasks.find? extension.taskId) readAt) now).snd)
    else none
  | .otherTaskWrite tasks => some { s with tasks := tasks }

def roundLaneMachine : Machine RoundLaneState RoundLaneOp where
  init s := s.db.rounds = Table.empty ∧ s.db.outbox = [] ∧
    (forall row, row ∈ s.db.leases -> row.lane ≠ .bringupRound) ∧ s.issued = [] ∧ s.extensions = []
  step := roundLaneStep capacities

/-!
## Agreement
-/

/-- A round holds the lane exactly while it is open, and its lane row carries
its holder and its expiry. -/
structure Agrees (db : RoundDb) : Prop where
  held : forall roundId,
    (exists row, row ∈ db.leases ∧ row.lane = .bringupRound ∧ row.holderId = roundId) <->
    (exists round, round ∈ db.rounds ∧ round.roundId = roundId ∧ round.status = .open)
  same : forall row round, row ∈ db.leases -> row.lane = .bringupRound ->
    round ∈ db.rounds -> round.roundId = row.holderId ->
      row.taskId = round.holderTaskId ∧ row.expiresAt = leaseIso round.expiresUnix

def RoundRowsPidless (leases : Leases) : Prop :=
  forall row, row ∈ leases -> row.lane = .bringupRound -> row.pid = 0

def KeepsRoundRows (before after : Leases) : Prop :=
  forall row, row.lane = .bringupRound -> (row ∈ after <-> row ∈ before)

variable {db : RoundDb} {leases : Leases}

theorem Agrees.of_keeps (h : Agrees db) (hkeep : KeepsRoundRows db.leases leases) :
    Agrees { db with leases := leases } := by
  constructor
  · intro roundId
    rw [← h.held roundId]
    constructor
    · intro hrow
      rcases hrow with ⟨row, hrow, hlane, hid⟩
      exact ⟨row, (hkeep row hlane).mp hrow, hlane, hid⟩
    · intro hrow
      rcases hrow with ⟨row, hrow, hlane, hid⟩
      exact ⟨row, (hkeep row hlane).mpr hrow, hlane, hid⟩
  · intro row round hrow hlane hround hid
    exact h.same row round ((hkeep row hlane).mp hrow) hlane hround hid

theorem RoundRowsPidless.of_keeps {before after : Leases}
    (h : RoundRowsPidless before) (hkeep : KeepsRoundRows before after) :
    RoundRowsPidless after := by
  intro row hrow hlane
  exact h row ((hkeep row hlane).mp hrow) hlane

/-!
## Lane operations keep the round rows

Acquires and releases name known lanes only, and the dead-holder pass takes no
row without a process.
-/

theorem keepsRoundRows_acquired {request : AcquireRequest} {acquirer : Acquirer}
    {expanded : List KnownLane} (hnodup : expanded.Nodup) :
    KeepsRoundRows leases (leases.insertOrReplaceAll
      (expanded.map (acquiredRow request acquirer))) := by
  intro row hlane
  rw [mem_acquired hnodup]
  constructor
  · intro h
    rcases h with ⟨lane, _, rfl⟩ | ⟨hrow, _⟩
    · cases hlane
    · exact hrow
  · intro hrow
    refine Or.inr ⟨hrow, ?_⟩
    intro _ lane _ hknown
    rw [hlane] at hknown
    cases hknown

theorem keepsRoundRows_release (leases : Leases) (lease : Lease) :
    KeepsRoundRows leases (release leases lease) := by
  intro row hlane
  rw [mem_release]
  constructor
  · intro h
    exact h.left
  · intro hrow
    refine ⟨hrow, ?_⟩
    intro _ lane _ hknown
    rw [hlane] at hknown
    cases hknown

theorem keepsRoundRows_reapDeadHolders {gpuTasks : List String}
    {probe : LeaseRow -> Probe} (hpid : RoundRowsPidless leases) :
    KeepsRoundRows leases (reapDeadHolders leases gpuTasks probe).snd := by
  intro row hlane
  rw [mem_reapDeadHolders]
  constructor
  · intro h
    exact h.left
  · intro hrow
    refine ⟨hrow, ?_⟩
    cases hdead : holderIsDead (probe row) row with
    | false => simp [reaps, hdead]
    | true =>
      have hpos := holderIsDead_pid_pos hdead
      rw [hpid row hrow hlane] at hpos
      exact absurd hpos (lt_irrefl 0)

variable {capacities : Capacities}

theorem keepsRoundRows_lane {s t : LaneState} {op : TaskLaneOp}
    (hpid : RoundRowsPidless s.leases) (h : laneStep capacities s op.toLaneOp = some t) :
    KeepsRoundRows s.leases t.leases := by
  cases op with
  | acquireMany request acquirer =>
    rcases laneStep_acquireMany_cases h with rfl | ⟨expanded, hexpand, _, hafter, _⟩
    · intro row _
      exact Iff.rfl
    · rw [hafter]
      exact keepsRoundRows_acquired (expandLanes_nodup hexpand)
  | release lease =>
    rcases some_of_when h with ⟨_, rfl⟩
    exact keepsRoundRows_release s.leases lease
  | reapDeadHolders gpuTasks probe =>
    cases h
    exact keepsRoundRows_reapDeadHolders hpid

/-!
## The round store keeps the two tables in step
-/

/-- `after` replaces the round of its id, or is added. -/
def Replaces (before rounds : Rounds) (after : Round) : Prop :=
  forall round, round ∈ rounds <-> round = after ∨ (round ∈ before ∧ round.roundId ≠ after.roundId)

variable {after : Round} {rounds : Rounds} {roundId : String}

theorem exists_round_congr {before : Rounds} (h : Replaces before rounds after)
    (hid : roundId ≠ after.roundId) :
    (exists round, round ∈ before ∧ round.roundId = roundId ∧ round.status = .open) <->
    (exists round, round ∈ rounds ∧ round.roundId = roundId ∧ round.status = .open) := by
  apply exists_congr
  intro round
  constructor
  · intro hround
    rcases hround with ⟨hround, hroundId, hopen⟩
    refine ⟨(h round).mpr (Or.inr ⟨hround, ?_⟩), hroundId, hopen⟩
    rw [hroundId]
    exact hid
  · intro hround
    rcases hround with ⟨hround, hroundId, hopen⟩
    rcases (h round).mp hround with rfl | ⟨hold, _⟩
    · exact absurd hroundId.symm hid
    · exact ⟨hold, hroundId, hopen⟩

variable {row : LeaseRow}

theorem key_eq_iff :
    row.key = (.bringupRound, roundId) <-> row.lane = .bringupRound ∧ row.holderId = roundId := by
  rw [LeaseRow.key, Prod.mk.injEq]

variable {now : Unix}

theorem mem_holdRoundLane_own {holder : String} {expires : Unix}
    (h : row ∈ holdRoundLane leases roundId holder expires now)
    (hkey : row.key = (.bringupRound, roundId)) :
    row.taskId = holder ∧ row.expiresAt = leaseIso expires := by
  rcases mem_holdRoundLane.mp h with ⟨_, hne⟩ | ⟨_, _, _, rfl⟩ | ⟨rfl, _⟩
  · exact absurd hkey hne
  · exact ⟨rfl, rfl⟩
  · exact ⟨rfl, rfl⟩

theorem mem_holdRoundLane_other {holder : String} {expires : Unix}
    (hkey : row.key ≠ (.bringupRound, roundId)) :
    row ∈ holdRoundLane leases roundId holder expires now <-> row ∈ leases := by
  rw [mem_holdRoundLane]
  constructor
  · intro h
    rcases h with ⟨hrow, _⟩ | ⟨old, _, hold, rfl⟩ | ⟨rfl, _⟩
    · exact hrow
    · exact absurd hold hkey
    · exact absurd rfl hkey
  · intro hrow
    exact Or.inl ⟨hrow, hkey⟩

theorem exists_mem_holdRoundLane (leases : Leases) (roundId holder : String) (expires now : Unix) :
    exists row, row ∈ holdRoundLane leases roundId holder expires now ∧
      row.key = (.bringupRound, roundId) := by
  by_cases hold : exists old, old ∈ leases ∧ old.key = (.bringupRound, roundId)
  · rcases hold with ⟨old, hmem, hkey⟩
    exact ⟨{ old with taskId := holder, expiresAt := leaseIso expires },
      mem_holdRoundLane.mpr (Or.inr (Or.inl ⟨old, hmem, hkey, rfl⟩)), hkey⟩
  · refine ⟨roundLaneRow roundId holder expires now,
      mem_holdRoundLane.mpr (Or.inr (Or.inr ⟨rfl, ?_⟩)), rfl⟩
    intro old hmem hkey
    exact hold ⟨old, hmem, hkey⟩

variable {outbox : List RoundEvent}

theorem agrees_hold (h : Agrees db)
    (hreplaces : Replaces db.rounds rounds after) (hopen : after.status = .open) :
    Agrees
      { rounds := rounds
        leases := holdRoundLane db.leases after.roundId after.holderTaskId after.expiresUnix now
        outbox := outbox } := by
  constructor
  · intro roundId
    by_cases hid : roundId = after.roundId
    · rw [hid]
      apply iff_of_true
      · rcases exists_mem_holdRoundLane db.leases after.roundId
          after.holderTaskId after.expiresUnix now with ⟨row, hrow, hkey⟩
        exact ⟨row, hrow, (key_eq_iff.mp hkey).left, (key_eq_iff.mp hkey).right⟩
      · exact ⟨after, (hreplaces after).mpr (Or.inl rfl), rfl, hopen⟩
    · refine Iff.trans ?_ ((h.held roundId).trans ?_)
      · apply exists_congr
        intro row
        constructor
        · intro hrow
          rcases hrow with ⟨hrow, hlane, hholder⟩
          have hkey : row.key ≠ (.bringupRound, after.roundId) := fun hkey =>
            hid (hholder.symm.trans (key_eq_iff.mp hkey).right)
          exact ⟨(mem_holdRoundLane_other hkey).mp hrow, hlane, hholder⟩
        · intro hrow
          rcases hrow with ⟨hrow, hlane, hholder⟩
          have hkey : row.key ≠ (.bringupRound, after.roundId) := fun hkey =>
            hid (hholder.symm.trans (key_eq_iff.mp hkey).right)
          exact ⟨(mem_holdRoundLane_other hkey).mpr hrow, hlane, hholder⟩
      · exact exists_round_congr hreplaces hid
  · intro row round hrow hlane hround hid
    rcases (hreplaces round).mp hround with rfl | ⟨hold, hne⟩
    · exact mem_holdRoundLane_own hrow (key_eq_iff.mpr ⟨hlane, hid.symm⟩)
    · have hkey : row.key ≠ (.bringupRound, after.roundId) := fun hkey =>
        hne (hid.trans (key_eq_iff.mp hkey).right)
      exact h.same row round ((mem_holdRoundLane_other hkey).mp hrow) hlane hold hid

theorem agrees_drop (h : Agrees db)
    (hreplaces : Replaces db.rounds rounds after) (hopen : after.status ≠ .open) :
    Agrees
      { rounds := rounds
        leases := dropRoundLane db.leases after.roundId
        outbox := outbox } := by
  constructor
  · intro roundId
    by_cases hid : roundId = after.roundId
    · rw [hid]
      apply iff_of_false
      · intro hrow
        rcases hrow with ⟨row, hrow, hlane, hholder⟩
        exact (mem_dropRoundLane.mp hrow).right (key_eq_iff.mpr ⟨hlane, hholder⟩)
      · intro hround
        rcases hround with ⟨round, hround, hroundId, hroundOpen⟩
        rcases (hreplaces round).mp hround with rfl | ⟨_, hne⟩
        · exact hopen hroundOpen
        · exact hne hroundId
    · refine Iff.trans ?_ ((h.held roundId).trans ?_)
      · apply exists_congr
        intro row
        rw [mem_dropRoundLane]
        constructor
        · intro hrow
          exact ⟨hrow.left.left, hrow.right⟩
        · intro hrow
          refine ⟨⟨hrow.left, ?_⟩, hrow.right⟩
          intro hkey
          exact hid (hrow.right.right.symm.trans (key_eq_iff.mp hkey).right)
      · exact exists_round_congr hreplaces hid
  · intro row round hrow hlane hround hid
    rcases mem_dropRoundLane.mp hrow with ⟨hrow, hkey⟩
    rcases (hreplaces round).mp hround with rfl | ⟨hold, _⟩
    · exact absurd (key_eq_iff.mpr ⟨hlane, hid.symm⟩) hkey
    · exact h.same row round hrow hlane hold hid

theorem agrees_placeLane (h : Agrees db) (hreplaces : Replaces db.rounds rounds after) :
    Agrees
      { rounds := rounds
        leases := placeLane db.leases after
        outbox := outbox } := by
  unfold placeLane
  split
  · rename_i hopen
    exact agrees_hold h hreplaces hopen
  · rename_i hsettled
    apply agrees_drop h hreplaces
    rw [hsettled]
    intro hopen
    cases hopen

theorem agrees_round {next : RoundDb} {call : RoundCall} (h : Agrees db)
    (heffect : Effect db call next) : Agrees next := by
  cases heffect with
  | opened hfree hinsert =>
    apply agrees_placeLane h
    intro round
    rw [Table.mem_insertNew hinsert]
    apply or_congr_right
    constructor
    · intro hround
      refine ⟨hround, ?_⟩
      intro hkey
      rw [Table.insertNew_eq_none.mpr ⟨round, hround, hkey⟩] at hinsert
      cases hinsert
    · intro hround
      exact hround.left
  | @swapped _ _ current move request _ hcurrent _ =>
    apply agrees_placeLane h
    intro round
    rw [RoundMove.advance_roundId]
    exact mem_updateRound hcurrent (RoundMove.advance_roundId move _ current)
      (RoundMove.advance_openedUnix move _ current)
  | recorded _ => exact ⟨h.held, h.same⟩
  | raised => exact h

theorem pidless_placeLane (h : RoundRowsPidless leases) :
    RoundRowsPidless (placeLane leases after) := by
  intro row hrow hlane
  unfold placeLane at hrow
  split at hrow
  · rcases mem_holdRoundLane.mp hrow with ⟨hold, _⟩ | ⟨old, hold, hkey, rfl⟩ | ⟨rfl, _⟩
    · exact h row hold hlane
    · exact h old hold (key_eq_iff.mp hkey).left
    · rfl
  · exact h row (mem_dropRoundLane.mp hrow).left hlane

theorem pidless_round {next : RoundDb} {call : RoundCall}
    (h : RoundRowsPidless db.leases) (heffect : Effect db call next) :
    RoundRowsPidless next.leases := by
  cases heffect with
  | recorded _ => exact h
  | raised => exact h
  | _ => exact pidless_placeLane h

/-!
## The heartbeat

A heartbeat moves the expiry of every row its task holds, the row of an open
round included, but not the round's own.
-/

theorem pidless_heartbeat {taskId : String} {ttlSec : Int} (h : RoundRowsPidless leases) :
    RoundRowsPidless (heartbeatByTask leases taskId ttlSec now).snd := by
  intro row hrow hlane
  rcases mem_heartbeatByTask.mp hrow with ⟨hold, _⟩ | ⟨old, hold, _, rfl⟩
  · exact h row hold hlane
  · exact h old hold hlane

/-- The refreshed expiry is the one the open rounds of the task already have. -/
def RefreshesAlike (rounds : Rounds) (taskId : String) (expiresAt : Iso) : Prop :=
  forall round, round ∈ rounds -> round.status = .open ->
    round.holderTaskId = taskId -> expiresAt = leaseIso round.expiresUnix

theorem agrees_heartbeat {taskId : String} {ttlSec : Int} (h : Agrees db) :
    Agrees { db with leases := (heartbeatByTask db.leases taskId ttlSec now).snd } <->
      RefreshesAlike db.rounds taskId (leaseIso (now + ttlSec)) := by
  constructor
  · intro hafter round hround hopen hholder
    rcases (h.held round.roundId).mpr ⟨round, hround, rfl, hopen⟩ with ⟨row, hrow, hlane, hid⟩
    have htask : row.taskId = taskId :=
      (h.same row round hrow hlane hround hid.symm).left.trans hholder
    have hnew : { row with expiresAt := leaseIso (now + ttlSec) } ∈
        (heartbeatByTask db.leases taskId ttlSec now).snd :=
      mem_heartbeatByTask.mpr (Or.inr ⟨row, hrow, htask, rfl⟩)
    exact (hafter.same _ round hnew hlane hround hid.symm).right
  · intro halike
    constructor
    · intro roundId
      rw [← h.held roundId]
      constructor
      · intro hrow
        rcases hrow with ⟨row, hrow, hlane, hid⟩
        rcases mem_heartbeatByTask.mp hrow with ⟨hold, _⟩ | ⟨old, hold, _, rfl⟩
        · exact ⟨row, hold, hlane, hid⟩
        · exact ⟨old, hold, hlane, hid⟩
      · intro hrow
        rcases hrow with ⟨row, hrow, hlane, hid⟩
        by_cases htask : row.taskId = taskId
        · exact ⟨{ row with expiresAt := leaseIso (now + ttlSec) },
            mem_heartbeatByTask.mpr (Or.inr ⟨row, hrow, htask, rfl⟩), hlane, hid⟩
        · exact ⟨row, mem_heartbeatByTask.mpr (Or.inl ⟨hrow, htask⟩), hlane, hid⟩
    · intro row round hrow hlane hround hid
      rcases mem_heartbeatByTask.mp hrow with ⟨hold, _⟩ | ⟨old, hold, htask, rfl⟩
      · exact h.same row round hold hlane hround hid
      · have hsame := h.same old round hold hlane hround hid
        have hopen : round.status = .open := by
          rcases (h.held old.holderId).mp ⟨old, hold, hlane, rfl⟩ with
            ⟨other, hother, hotherId, hotherOpen⟩
          rw [Table.eq_of_key_eq hround hother (hid.trans hotherId.symm)]
          exact hotherOpen
        exact ⟨hsame.left, halike round hround hopen (hsame.left.symm.trans htask)⟩

/-!
## Whole runs
-/

/-- The steps after which the tables still agree: a heartbeat must not move the
lane row of an open round its task holds. -/
def SparesRounds (s : RoundLaneState) : RoundLaneOp -> Prop
  | .heartbeat extension readAt now =>
    RefreshesAlike s.db.rounds extension.taskId
      (leaseIso (now + remainingSec extension (s.tasks.find? extension.taskId) readAt))
  | _ => True

variable {s : RoundLaneState}

theorem roundLane_step {t : RoundLaneState} {op : RoundLaneOp} (hpid : RoundRowsPidless s.db.leases)
    (h : roundLaneStep capacities s op = some t) : RoundRowsPidless t.db.leases ∧
      (Agrees s.db -> (Agrees t.db <-> SparesRounds s op)) := by
  revert h
  fun_cases roundLaneStep capacities s op with (intro h; cases h)
  | case1 call =>
    have heffect := call_effect s.db call
    exact ⟨pidless_round hpid heffect, fun hs => iff_of_true (agrees_round hs heffect) trivial⟩
  | case3 op lanes hlane =>
    have hkeeps := keepsRoundRows_lane hpid hlane
    exact ⟨hpid.of_keeps hkeeps, fun hs => iff_of_true (hs.of_keeps hkeeps) trivial⟩
  | case6 => exact ⟨pidless_heartbeat hpid, agrees_heartbeat⟩
  | _ => exact ⟨hpid, fun hs => iff_of_true hs trivial⟩

theorem init_agrees (h : (roundLaneMachine capacities).init s) :
    RoundRowsPidless s.db.leases ∧ Agrees s.db := by
  rcases h with ⟨hrounds, _, hlanes, _⟩
  constructor
  · intro row hrow hlane
    exact absurd hlane (hlanes row hrow)
  · constructor
    · intro roundId
      apply iff_of_false
      · intro hrow
        rcases hrow with ⟨row, hrow, hlane, _⟩
        exact hlanes row hrow hlane
      · intro hround
        rcases hround with ⟨round, hround, _⟩
        rw [hrounds] at hround
        exact Table.not_mem_empty round hround
    · intro row _ hrow hlane
      exact absurd hlane (hlanes row hrow)

/-- The tables agree in every state of a run exactly if no heartbeat of the run
moves the lane row of an open round its task holds. -/
theorem round_lane_agreement (capacities : Capacities)
    (start s : RoundLaneState) (trace : List RoundLaneOp)
    (hstart : (roundLaneMachine capacities).init start)
    (hrun : (roundLaneMachine capacities).Run Machine.Always start trace s) :
    (forall visited mid, visited <+: trace ->
      (roundLaneMachine capacities).Run Machine.Always start visited mid -> Agrees mid.db) <->
    (roundLaneMachine capacities).Run SparesRounds start trace s :=
  hrun.always_iff (J := fun s => RoundRowsPidless s.db.leases) (I := fun s => Agrees s.db)
    (fun _ _ _ hpid hstep => (roundLane_step hpid hstep).left)
    (fun _ _ _ hpid hagrees hstep => (roundLane_step hpid hstep).right hagrees)
    (init_agrees hstart).left (init_agrees hstart).right

def runningTask : TaskRow where
  taskId := "t"
  kind := "specialist"
  state := .running
  createdAt := ⟨0⟩
  updatedAt := ⟨0⟩

def runningStart : RoundLaneState where
  db := { rounds := Table.empty, leases := Table.empty, outbox := [] }
  tasks := { rows := [runningTask], unique := List.nodup_singleton _ }
  issued := []
  extensions := []

def openByTask : RoundLaneOp :=
  .round (.openRound "r" { requestId := "q", nowUnix := 0 } "t" 60 .absent)

theorem round_lane_agreement_open :
    exists s,
      (roundLaneMachine defaultLaneCapacities).Run SparesRounds runningStart
        [openByTask] s ∧ Agrees s.db := by
  have hinit : (roundLaneMachine defaultLaneCapacities).init runningStart :=
    ⟨rfl, rfl, fun _ hrow => absurd hrow (Table.not_mem_empty _), rfl, rfl⟩
  have hrun : (roundLaneMachine defaultLaneCapacities).Run Machine.Always
      runningStart [openByTask] _ :=
    .cons trivial rfl (.nil _)
  have hspares : (roundLaneMachine defaultLaneCapacities).Run SparesRounds
      runningStart [openByTask] _ :=
    .cons trivial rfl (.nil _)
  have hagree := (round_lane_agreement defaultLaneCapacities runningStart _
    [openByTask] hinit hrun).mpr hspares
  exact ⟨_, hspares, hagree [openByTask] _ (List.prefix_refl _) hrun⟩

def ExpiresApart (s : RoundLaneState) : Prop :=
  exists row, row ∈ s.db.leases.rows ∧ row.lane = .bringupRound ∧
    exists round, round ∈ s.db.rounds.rows ∧ round.roundId = row.holderId ∧
      row.expiresAt ≠ leaseIso round.expiresUnix

instance (s : RoundLaneState) : Decidable (ExpiresApart s) :=
  inferInstanceAs (Decidable (exists row, row ∈ s.db.leases.rows ∧ _))

/-- The holder of an open round is extended by 90 seconds: its lane row moves
past the round's own expiry. -/
theorem round_lane_disagreement :
    exists s, (roundLaneMachine defaultLaneCapacities).Reachable s ∧ ¬ Agrees s.db := by
  have happart : exists s,
      (roundLaneMachine defaultLaneCapacities).ReachableWhere Machine.Always s ∧ ExpiresApart s :=
    Machine.ReachableWhere.exists_of_runIf runningStart
      [openByTask, .extendLease "t" 90, .heartbeat ⟨"t", 90, 90⟩ 10 10]
      ⟨rfl, rfl, fun _ hrow => absurd hrow (Table.not_mem_empty _), rfl, rfl⟩ (by decide +kernel)
  rcases happart with ⟨s, hs, row, hrow, hlane, round, hround, hid, hne⟩
  refine ⟨s, hs, ?_⟩
  intro hagrees
  exact hne (hagrees.same row round hrow hlane hround hid).right

end State
end Hyperloom
