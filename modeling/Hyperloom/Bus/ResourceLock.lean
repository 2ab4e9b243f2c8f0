import Mathlib.Data.Finset.Card
import Mathlib.Data.List.Sort
import Hyperloom.Storage.Schema

/-!
# Lane leases

The operations of the `leases` table: the atomic batch acquire with its
conflict expansion, release, heartbeat, the dead-holder pass, and the row an
open bring-up round writes and drops.

What a process reads of its surroundings while it runs an operation (the
clock, its own pid, the scope `/proc` gives it, which pids are alive) is an
argument of the operation.
-/

namespace Hyperloom
namespace Bus

open Library Storage

/-!
## Conflicts and expansion
-/

/-- `LANE_CONFLICTS`: the lanes that must be co-acquired with a lane. -/
def laneConflicts : KnownLane -> List KnownLane
  | .benchmarkLane => [.profileLane, .serverLifecycle, .gpuResearchLane]
  | .profileLane => [.benchmarkLane, .serverLifecycle, .gpuResearchLane]
  | .serverLifecycle => [.benchmarkLane, .profileLane, .gpuResearchLane]
  | .workspaceMutation => []
  | .researchLane => []
  | .gpuResearchLane => [.benchmarkLane, .profileLane, .serverLifecycle]
  | .buildLane => []

/-- A set of lanes that holds the conflicts of each of its members. -/
def ConflictClosed (lanes : List KnownLane) : Prop :=
  forall lane, lane ∈ lanes -> forall other, other ∈ laneConflicts lane -> other ∈ lanes

variable {lane : KnownLane}

theorem laneConflicts_symm {other : KnownLane} :
    other ∈ laneConflicts lane -> lane ∈ laneConflicts other := by
  cases lane <;> cases other <;> decide

inductive LockError where
  | noLanes
  | unknownLane (lane : String)
deriving DecidableEq

/-- The loop of `_expand_lanes`, over the set collected so far. -/
def collectLanes (out : List KnownLane) : List String -> Except LockError (List KnownLane)
  | [] => .ok out
  | text :: rest =>
    match KnownLane.ofName? text with
    | none => .error (.unknownLane text)
    | some lane => collectLanes (out ++ lane :: laneConflicts lane) rest

/-- `_expand_lanes`: the requested lanes with their conflicts, sorted. -/
def expandLanes (lanes : List String) : Except LockError (List KnownLane) :=
  match collectLanes [] lanes with
  | .error e => .error e
  | .ok out => .ok (KnownLane.byName.filter (fun lane => lane ∈ out))

variable {lanes : List String}

theorem mem_collectLanes {out collected : List KnownLane}
    (h : collectLanes out lanes = .ok collected) (lane : KnownLane) :
    lane ∈ collected <-> lane ∈ out ∨ exists text asked, text ∈ lanes ∧
        KnownLane.ofName? text = some asked ∧ (lane = asked ∨ lane ∈ laneConflicts asked) := by
  induction lanes generalizing out with
  | nil =>
    injection h with h
    simp [h]
  | cons text rest ih =>
    rw [collectLanes] at h
    split at h
    · cases h
    rename_i asked hasked
    rw [ih h, List.mem_append, List.mem_cons, or_assoc]
    constructor
    · intro hcase
      rcases hcase with hout | hnew | ⟨text', asked', hmem, hrest⟩
      · exact Or.inl hout
      · exact Or.inr ⟨text, asked, by simp, hasked, hnew⟩
      · exact Or.inr ⟨text', asked', by simp [hmem], hrest⟩
    · intro hcase
      rcases hcase with hout | ⟨text', asked', hmem, hname, hrest⟩
      · exact Or.inl hout
      · rcases List.mem_cons.mp hmem with rfl | hmem
        · rw [hasked] at hname
          injection hname with hname
          rw [hname]
          exact Or.inr (Or.inl hrest)
        · exact Or.inr (Or.inr ⟨text', asked', hmem, hname, hrest⟩)

variable {expanded : List KnownLane}

theorem mem_expandLanes (h : expandLanes lanes = .ok expanded) (lane : KnownLane) :
    lane ∈ expanded <->
      exists text asked, text ∈ lanes ∧
        KnownLane.ofName? text = some asked ∧ (lane = asked ∨ lane ∈ laneConflicts asked) := by
  unfold expandLanes at h
  split at h
  · cases h
  rename_i out hout
  injection h with h
  rw [← h]
  simp [KnownLane.mem_byName, mem_collectLanes hout]

theorem expandLanes_nodup (h : expandLanes lanes = .ok expanded) : expanded.Nodup := by
  unfold expandLanes at h
  split at h
  · cases h
  injection h with h
  rw [← h]
  exact List.Nodup.filter _ (by decide)

theorem laneConflicts_trans {a b c : KnownLane} :
    b ∈ laneConflicts a -> c ∈ laneConflicts b -> c = a ∨ c ∈ laneConflicts a := by
  cases a <;> cases b <;> cases c <;> decide

theorem expandLanes_conflictClosed (h : expandLanes lanes = .ok expanded) :
    ConflictClosed expanded := by
  intro lane hlane other hother
  rcases (mem_expandLanes h lane).mp hlane with ⟨text, asked, hmem, hname, hcase⟩
  apply (mem_expandLanes h other).mpr
  refine ⟨text, asked, hmem, hname, ?_⟩
  rcases hcase with rfl | hconflict
  · exact Or.inr hother
  · exact laneConflicts_trans hconflict hother

/-!
## Acquire
-/

abbrev Capacities := Lane -> Option Nat

def defaultLaneCapacities : Lane -> Option Nat
  | .known _ => some 1
  | .bringupRound => none

variable (capacities : Capacities)

def capacityOf (lane : Lane) : Nat :=
  (capacities lane).getD ((defaultLaneCapacities lane).getD 1)

/-- `holders_per_lane`: the distinct holders of a lane. -/
def holdersOf (leases : Leases) (lane : Lane) : Finset String :=
  ((leases.rows.filter (fun row => row.lane = lane)).map LeaseRow.holderId).toFinset

variable {leases : Leases}

theorem mem_holdersOf {lane : Lane} {holder : String} :
    holder ∈ holdersOf leases lane <->
      exists row, row ∈ leases ∧ row.lane = lane ∧ row.holderId = holder := by
  unfold holdersOf
  rw [List.mem_toFinset, List.mem_map]
  constructor
  · intro h
    rcases h with ⟨row, hrow, hholder⟩
    have hfilter := List.mem_filter.mp hrow
    exact ⟨row, hfilter.left, by simpa using hfilter.right, hholder⟩
  · intro h
    rcases h with ⟨row, hrow, hlane, hholder⟩
    exact ⟨row, List.mem_filter.mpr ⟨hrow, by simpa using hlane⟩, hholder⟩

structure Lease where
  holderId : String
  lanes : List KnownLane
deriving DecidableEq

structure AcquireRequest where
  lanes : List String
  holderId : String
  taskId : String
  action : String
  ttlSec : Int
deriving DecidableEq

/-- What the acquiring process reads: its pid, the clock, the ISO text of the
moment, and the scope `/proc` gives when each row is written. -/
structure Acquirer where
  pid : Int
  now : Unix
  stamp : Iso
  scope : KnownLane -> String

def acquiredRow (request : AcquireRequest) (acquirer : Acquirer) (lane : KnownLane) : LeaseRow where
  lane := .known lane
  holderId := request.holderId
  taskId := request.taskId
  action := request.action
  pid := acquirer.pid
  ownerScope := acquirer.scope lane
  acquiredAt := acquirer.stamp
  expiresAt := leaseIso (acquirer.now + request.ttlSec)

def laneRefuses (leases : Leases) (holder : String) (lane : KnownLane) : Bool :=
  decide (¬ holder ∈ holdersOf leases (.known lane)) &&
    decide (capacityOf capacities (.known lane) ≤ (holdersOf leases (.known lane)).card)

/-- `acquire_many`: the lease and the table it leaves, `none` when any lane
refuses the holder. -/
def acquireMany (leases : Leases)
    (request : AcquireRequest) (acquirer : Acquirer) : Except LockError (Option Lease × Leases) :=
  if request.lanes.isEmpty then .error .noLanes
  else
    match expandLanes request.lanes with
    | .error e => .error e
    | .ok expanded =>
      if expanded.any (laneRefuses capacities leases request.holderId) then
        .ok (none, leases)
      else
        .ok (some ⟨request.holderId, expanded⟩,
          leases.insertOrReplaceAll (expanded.map (acquiredRow request acquirer)))

variable {row : LeaseRow} {request : AcquireRequest} {acquirer : Acquirer}

/-- The rows a granted acquire leaves: its own, and those under other keys. -/
theorem mem_acquired (hnodup : expanded.Nodup) :
    row ∈ leases.insertOrReplaceAll (expanded.map (acquiredRow request acquirer)) <->
      (exists lane, lane ∈ expanded ∧ row = acquiredRow request acquirer lane) ∨
      (row ∈ leases ∧ (row.holderId = request.holderId ->
        forall lane, lane ∈ expanded -> row.lane ≠ .known lane)) := by
  have hkeys : ((expanded.map (acquiredRow request acquirer)).map LeaseRow.key).Nodup := by
    rw [List.map_map]
    apply List.Nodup.map _ hnodup
    intro a b hab
    simpa [acquiredRow, LeaseRow.key] using hab
  rw [Table.mem_insertOrReplaceAll hkeys, List.mem_map]
  constructor
  · intro h
    rcases h with ⟨lane, hlane, hrow⟩ | ⟨hrow, hother⟩
    · exact Or.inl ⟨lane, hlane, hrow.symm⟩
    · refine Or.inr ⟨hrow, ?_⟩
      intro hholder lane hlane hsame
      apply hother _ (List.mem_map.mpr ⟨lane, hlane, rfl⟩)
      simp [LeaseRow.key, acquiredRow, hholder, hsame]
  · intro h
    rcases h with ⟨lane, hlane, hrow⟩ | ⟨hrow, hother⟩
    · exact Or.inl ⟨lane, hlane, hrow.symm⟩
    · refine Or.inr ⟨hrow, ?_⟩
      intro new hnew hkey
      rcases List.mem_map.mp hnew with ⟨lane, hlane, rfl⟩
      have hparts : row.lane = .known lane ∧ row.holderId = request.holderId := by
        simpa [LeaseRow.key, acquiredRow] using hkey
      exact hother hparts.right lane hlane hparts.left

variable {capacities : Capacities}

/-- An acquire that raises nothing either is refused and leaves the table, or
grants the expanded lanes and writes their rows. -/
theorem acquireMany_cases {after : Leases} {answer : Option Lease}
    (h : acquireMany capacities leases request acquirer = .ok (answer, after)) :
    (answer = none ∧ after = leases) ∨
    exists expanded, expandLanes request.lanes = .ok expanded ∧
      answer = some ⟨request.holderId, expanded⟩ ∧
      after = leases.insertOrReplaceAll (expanded.map (acquiredRow request acquirer)) ∧
      forall lane, lane ∈ expanded ->
        laneRefuses capacities leases request.holderId lane = false := by
  revert h
  fun_cases acquireMany capacities leases request acquirer with (intro h; cases h)
  | case3 => exact Or.inl ⟨rfl, rfl⟩
  | case4 _ expanded hexpanded hrefuses =>
    refine Or.inr ⟨expanded, hexpanded, rfl, rfl, ?_⟩
    intro lane hlane
    cases hlaneRefuses : laneRefuses capacities leases request.holderId lane with
    | false => rfl
    | true =>
      exact absurd (List.any_eq_true.mpr ⟨lane, hlane, hlaneRefuses⟩) hrefuses

theorem acquireMany_granted (hlanes : request.lanes ≠ [])
    (hexpanded : expandLanes request.lanes = .ok expanded) (hfits : forall lane, lane ∈ expanded ->
      laneRefuses capacities leases request.holderId lane = false) :
    acquireMany capacities leases request acquirer = .ok (some ⟨request.holderId, expanded⟩,
        leases.insertOrReplaceAll (expanded.map (acquiredRow request acquirer))) := by
  have hany : expanded.any (laneRefuses capacities leases request.holderId) = false := by
    rw [List.any_eq_false]
    intro lane hlane
    rw [hfits lane hlane]
    exact Bool.false_ne_true
  unfold acquireMany
  rw [if_neg (by simpa using hlanes), hexpanded]
  simp [hany]

theorem laneRefuses_eq_false {holder : String} :
    laneRefuses capacities leases holder lane = false <-> holder ∈ holdersOf leases (.known lane) ∨
        (holdersOf leases (.known lane)).card < capacityOf capacities (.known lane) := by
  simp [laneRefuses, imp_iff_not_or]

/-!
## Release and heartbeat
-/

/-- `release`: drop every row of the lease's lanes under its holder. -/
def release (leases : Leases) (lease : Lease) : Leases :=
  leases.deleteWhere (fun row =>
    decide (row.lane ∈ lease.lanes.map Lane.known) && decide (row.holderId = lease.holderId))

theorem mem_release {lease : Lease} :
    row ∈ release leases lease <-> row ∈ leases ∧ (row.holderId = lease.holderId ->
        forall lane, lane ∈ lease.lanes -> row.lane ≠ .known lane) := by
  unfold release
  rw [Table.mem_deleteWhere]
  apply and_congr_right
  intro _
  rw [Bool.and_eq_false_iff, decide_eq_false_iff_not, decide_eq_false_iff_not]
  constructor
  · intro h hholder lane hlane hsame
    rcases h with hmem | hne
    · exact hmem (List.mem_map.mpr ⟨lane, hlane, hsame.symm⟩)
    · exact hne hholder
  · intro h
    by_cases hholder : row.holderId = lease.holderId
    · apply Or.inl
      intro hmem
      rcases List.mem_map.mp hmem with ⟨lane, hlane, hsame⟩
      exact h hholder lane hlane hsame.symm
    · exact Or.inr hholder

def laneName : Lane -> String
  | .known lane => lane.name
  | .bringupRound => "bringup_round"

def refreshTask (leases : Leases) (taskId : String) (expiresAt : Iso) : Leases :=
  leases.updateWhere (fun row => row.taskId = taskId)
    (fun row => { row with expiresAt := expiresAt }) (fun _ => rfl)

theorem mem_refreshTask {taskId : String} {expiresAt : Iso} :
    row ∈ refreshTask leases taskId expiresAt <-> (row ∈ leases ∧ row.taskId ≠ taskId) ∨
      exists old, old ∈ leases ∧ old.taskId = taskId ∧
        row = { old with expiresAt := expiresAt } := by
  refine Table.mem_updateWhere.trans ?_
  simp only [decide_eq_true_eq, decide_eq_false_iff_not]

/-- `heartbeat_by_task`: the lanes a task holds, sorted, and the table with
their expiry moved. -/
def heartbeatByTask (leases : Leases) (taskId : String) (ttlSec : Int)
    (now : Unix) : List String × Leases :=
  let lanes := (leases.rows.filter (fun row => row.taskId = taskId)).map
    (fun row => laneName row.lane)
  (lanes.insertionSort (fun a b => a ≤ b), if lanes.isEmpty then leases
    else refreshTask leases taskId (leaseIso (now + ttlSec)))

theorem mem_heartbeatByTask {taskId : String} {ttlSec : Int} {now : Unix} :
    row ∈ (heartbeatByTask leases taskId ttlSec now).snd <-> (row ∈ leases ∧ row.taskId ≠ taskId) ∨
      exists old, old ∈ leases ∧ old.taskId = taskId ∧
        row = { old with expiresAt := leaseIso (now + ttlSec) } := by
  unfold heartbeatByTask
  simp only []
  split
  · rename_i hnone
    have hno : forall old, old ∈ leases -> old.taskId ≠ taskId := by
      simpa [Table.mem_rows] using hnone
    constructor
    · intro hrow
      exact Or.inl ⟨hrow, hno row hrow⟩
    · intro h
      rcases h with ⟨hrow, _⟩ | ⟨old, hold, htask, _⟩
      · exact hrow
      · exact absurd htask (hno old hold)
  · exact mem_refreshTask

/-!
## The dead-holder pass
-/

/-- `local.rsplit(":", 1)[0]`: the text before the last colon, or all of it. -/
def beforeLastColon (text : String) : String :=
  match text.toList.reverse.dropWhile (fun c => c ≠ ':') with
  | [] => text
  | _ :: rest => String.ofList rest.reverse

/-- `same_environment`: whether a recorded scope names the local one. -/
def sameEnvironment (recorded localScope : String) : Bool :=
  if recorded = "" ∨ localScope = "" then false
  else
    decide (recorded = localScope) || (decide (recorded.toList.count ':' = 1) &&
        decide (beforeLastColon localScope = recorded))

example : sameEnvironment "boot:7" "boot:7:42" = true := by decide

/-- What one liveness probe reads: the local scope and the live pids. -/
structure Probe where
  localScope : String
  pidAlive : Int -> Bool

/-- `holder_is_dead`: the recorded process is absent from its own domain. -/
def holderIsDead (probe : Probe) (row : LeaseRow) : Bool :=
  sameEnvironment row.ownerScope probe.localScope &&
    (decide (0 < row.pid) && !probe.pidAlive row.pid)

theorem holderIsDead_pid_pos {probe : Probe} (h : holderIsDead probe row = true) : 0 < row.pid := by
  simp only [holderIsDead, Bool.and_eq_true, decide_eq_true_eq] at h
  exact h.right.left

/-- The rows the pass takes: dead by the probe made for the row, and of no task
that owns GPU cards. -/
def reaps (gpuTasks : List String) (probe : LeaseRow -> Probe) (row : LeaseRow) : Bool :=
  !decide (row.taskId ∈ gpuTasks) && holderIsDead (probe row) row

/-- `reap_dead_holders`: the rows taken and the table without them.  Every row
is judged by a probe of its own. -/
def reapDeadHolders (leases : Leases) (gpuTasks : List String)
    (probe : LeaseRow -> Probe) : List LeaseRow × Leases :=
  (leases.rows.filter (reaps gpuTasks probe), leases.deleteWhere (reaps gpuTasks probe))

theorem mem_reapDeadHolders {gpuTasks : List String} {probe : LeaseRow -> Probe} :
    row ∈ (reapDeadHolders leases gpuTasks probe).snd <->
      row ∈ leases ∧ reaps gpuTasks probe row = false :=
  Table.mem_deleteWhere

/-!
## The lane of an open round
-/

/-- The row `hold_round_lane` inserts; `ROUND_LEASE_PID` is 0 and the scope
column keeps its default. -/
def roundLaneRow (roundId holderTaskId : String) (expiresUnix nowUnix : Unix) : LeaseRow where
  lane := .bringupRound
  holderId := roundId
  taskId := holderTaskId
  action := "bringup_round"
  pid := 0
  acquiredAt := leaseIso nowUnix
  expiresAt := leaseIso expiresUnix

/-- `hold_round_lane`: insert the round's row, or move the holder and the
expiry of the one it has. -/
def holdRoundLane (leases : Leases) (roundId holderTaskId : String)
    (expiresUnix nowUnix : Unix) : Leases :=
  leases.upsert (roundLaneRow roundId holderTaskId expiresUnix nowUnix) (fun old =>
      { old with taskId := holderTaskId, expiresAt := leaseIso expiresUnix }) (fun _ => rfl)

def dropRoundLane (leases : Leases) (roundId : String) : Leases :=
  leases.deleteWhere (fun row =>
    decide (row.lane = .bringupRound) && decide (row.holderId = roundId))

theorem key_ne_of_known (h : row.lane = .known lane) (roundId : String) :
    row.key ≠ (.bringupRound, roundId) := by
  intro hkey
  have hround : row.lane = .bringupRound := congrArg Prod.fst hkey
  rw [h] at hround
  cases hround

theorem mem_holdRoundLane {roundId holderTaskId : String} {expiresUnix nowUnix : Unix} :
    row ∈ holdRoundLane leases roundId holderTaskId expiresUnix nowUnix <->
      (row ∈ leases ∧ row.key ≠ (.bringupRound, roundId)) ∨
      (exists old, old ∈ leases ∧ old.key = (.bringupRound, roundId) ∧
        row = { old with taskId := holderTaskId, expiresAt := leaseIso expiresUnix }) ∨
      (row = roundLaneRow roundId holderTaskId expiresUnix nowUnix ∧
        forall old, old ∈ leases -> old.key ≠ (.bringupRound, roundId)) :=
  Table.mem_upsert

theorem mem_dropRoundLane {roundId : String} :
    row ∈ dropRoundLane leases roundId <-> row ∈ leases ∧ row.key ≠ (.bringupRound, roundId) := by
  unfold dropRoundLane
  rw [Table.mem_deleteWhere]
  apply and_congr_right
  intro _
  rw [LeaseRow.key, Ne, Prod.mk.injEq, Bool.and_eq_false_iff,
    decide_eq_false_iff_not, decide_eq_false_iff_not]
  exact Decidable.not_and_iff_or_not.symm

end Bus
end Hyperloom
