import Mathlib.Data.Rat.Floor
import Hyperloom.Library.Table

/-!
# The coordinator database

The values the coordinator stores and the rows of the `tasks` and `leases`
tables.  Timestamps come in two forms: `time.time()` seconds, and the ISO text
the lease and task rows carry.
-/

namespace Hyperloom
namespace Storage

/-!
## Values
-/

abbrev Unix := Rat

/-- A UTC ISO-8601 text with six fractional digits, by the instant it writes. -/
structure Iso where
  micros : Int
deriving DecidableEq

def roundHalfEven (x : Rat) : Int :=
  let below := x.floor
  let rest := x - below
  if rest < 1 / 2 then below
  else if 1 / 2 < rest then below + 1
  else if below % 2 = 0 then below
  else below + 1

/-- `_lease_iso`: unix seconds rendered with microsecond precision. -/
def leaseIso (unixTs : Unix) : Iso where
  micros := roundHalfEven (unixTs * 1000000)

/-- The JSON values stored in `history`, `payload` and `evidence` columns. -/
inductive Json where
  | null
  | bool (b : Bool)
  | int (n : Int)
  | real (q : Rat)
  | str (s : String)
  | arr (items : List Json)
  | obj (fields : List (String × Json))

namespace Json

def get? (j : Json) (key : String) : Option Json :=
  match j with
  | obj fields => (fields.find? (fun field => field.fst = key)).map Prod.snd
  | _ => none

end Json

abbrev Evidence := List (String × Json)

/-!
## Task rows
-/

/-- The `state` column of `tasks`, as its CHECK constraint lists them. -/
inductive TaskState where
  | queued
  | running
  | succeeded
  | failed
  | cancelled
deriving DecidableEq

namespace TaskState

def name : TaskState -> String
  | queued => "queued"
  | running => "running"
  | succeeded => "succeeded"
  | failed => "failed"
  | cancelled => "cancelled"

/-- `TRANSITIONS`: the states each state may move to. -/
def transitions : TaskState -> List TaskState
  | queued => [running, cancelled]
  | running => [succeeded, failed, cancelled]
  | failed => []
  | succeeded => []
  | cancelled => []

/-- `TERMINAL_STATES`: the states without a successor. -/
def isTerminal (s : TaskState) : Bool := s.transitions.isEmpty

theorem mem_transitions_running {s : TaskState} : running ∈ s.transitions <-> s = queued := by
  cases s <;> decide

end TaskState

structure DispatchOrigin where
  phase : String
  macroCycle : Int
  tick : Int
deriving DecidableEq

/-- An entry of the `history` column: the dispatch evidence a row may start
with, a state change, completion evidence appended without one, a progress
note, or anything else the column holds. -/
inductive HistoryEntry where
  | dispatch (dispatchClass : String) (origin : DispatchOrigin) (ts : Iso)
  | moved (source target : TaskState) (ts : Iso) (evidence : Evidence)
  | completion (ts : Iso) (evidence : Evidence)
  | progress (note : Evidence) (ts : Iso)
  | other (entry : Json)

structure TaskRow where
  taskId : String
  kind : String
  state : TaskState
  params : Evidence := []
  idempotencyKey : String := ""
  requiresLanes : List String := []
  leaseTtlSec : Int := 0
  history : List HistoryEntry := []
  createdAt : Iso
  updatedAt : Iso

abbrev Tasks := Library.Table TaskRow TaskRow.taskId

/-!
## Lane rows
-/

/-- `KNOWN_LANES`: the lanes a task may request. -/
inductive KnownLane where
  | serverLifecycle
  | workspaceMutation
  | benchmarkLane
  | profileLane
  | researchLane
  | gpuResearchLane
  | buildLane
deriving DecidableEq

namespace KnownLane

def name : KnownLane -> String
  | serverLifecycle => "server_lifecycle"
  | workspaceMutation => "workspace_mutation"
  | benchmarkLane => "benchmark_lane"
  | profileLane => "profile_lane"
  | researchLane => "research_lane"
  | gpuResearchLane => "gpu_research_lane"
  | buildLane => "build_lane"

def byName : List KnownLane :=
  [benchmarkLane, buildLane, gpuResearchLane, profileLane, researchLane,
    serverLifecycle, workspaceMutation]

theorem mem_byName (lane : KnownLane) : lane ∈ byName := by
  cases lane <;> decide

example : (byName.map name).Pairwise (fun a b => a < b) := by decide

def ofName? (text : String) : Option KnownLane := byName.find? (fun lane => lane.name = text)

end KnownLane

/-- The `lane` column of `leases`: a known lane, or the one an open bring-up
round holds, which no task may request. -/
inductive Lane where
  | known (lane : KnownLane)
  | bringupRound
deriving DecidableEq

structure LeaseRow where
  lane : Lane
  holderId : String
  taskId : String
  action : String
  pid : Int
  ownerScope : String := ""
  acquiredAt : Iso
  expiresAt : Iso
deriving DecidableEq

def LeaseRow.key (row : LeaseRow) : Lane × String := (row.lane, row.holderId)

abbrev Leases := Library.Table LeaseRow LeaseRow.key

/-!
## GPU rows
-/

structure GpuLeaseRow where
  gpuId : Int
  holderId : String
  taskId : String
deriving DecidableEq

abbrev GpuLeases := Library.Table GpuLeaseRow GpuLeaseRow.gpuId

end Storage
end Hyperloom
