import Hyperloom.Library.Machine
import Hyperloom.Blackboard.Records

/-!
# The builds tests wait for

Each key's build runs once for every test that waits for it.  When it is ready
its tests are told one after the other, and a test with nothing left to wait
for is released; when it has failed they are ended.  Every await of these
loops lets the other tasks of the toolbox run: other builds settle, tests
begin to wait and tests are forgotten.
-/

namespace Hyperloom
namespace Toolbox

open Library Blackboard

/-- What names a build; the other inputs go into the key. -/
structure BuildInputs where
  key : String
  component : String
deriving DecidableEq

/-- A store entry: whether its status is `READY`, and why it failed. -/
structure BuildRecord where
  ready : Bool
  buildSeconds : Rat
  failure : String := ""
deriving DecidableEq

/-- A build a test needs, with the store's entry of it at its acceptance. -/
structure BuildNeed where
  inputs : BuildInputs
  stored : Option BuildRecord := none
deriving DecidableEq

inductive BuildState where
  | queued
  | building
  | ready
  | failed
deriving DecidableEq

inductive BuildPayment where
  | paid
  | reused
deriving DecidableEq

structure BuildCharge where
  key : String
  component : String
  buildSeconds : Rat
  payment : BuildPayment
deriving DecidableEq

structure BuildEnd where
  failureClass : FailureClass
  reason : String
deriving DecidableEq

inductive BuildOutcome where
  | ready
  | failed
deriving DecidableEq

structure BuildNotice where
  requestId : String
  key : String
  component : String
  state : BuildOutcome
  detail : String := ""
deriving DecidableEq

inductive Ensured where
  | record (record : BuildRecord) (reused : Bool)
  | refused (text : String)
  | infraError (detail : String)
deriving DecidableEq

/-- Where the task of a build is suspended, and the tests its loop has still to
take.  In `readyNotify` the loop of `_finish_ready` awaits a notice, in
`readyNext` the ready hook, in `endNext` the loop of `_end` the ended hook,
and in `infraNext` the loop of `_infra_failed` a notice. -/
inductive BuildTask where
  | created
  | ensuring
  | readyNotify (requestId : String) (rest : List String)
  | readyNext (rest : List String)
  | endNext (reason : BuildEnd) (rest : List String)
  | infraNext (detail : String) (rest : List String)
  | sleeping
  | done
  | raised
deriving DecidableEq

structure Build where
  inputs : BuildInputs
  state : BuildState := .queued
  buildSeconds : Rat := 0
  infraFailures : Nat := 0
  waiters : List String := []
  task : BuildTask := .created
deriving DecidableEq

/-- A `_Waiting` object: every key a test needs, and those not ready yet. -/
structure Waiting where
  keys : List String
  pending : List String
deriving DecidableEq

/-- How a test left the waiting ones. -/
inductive Fate where
  | released
  | ended (reason : BuildEnd)
  | forgotten
deriving DecidableEq

/-- The builds made so far with the one `_builds` has of each key, every
`_Waiting` object with whether `_waiting` still has it, and what the hooks
were called with. -/
structure PendingBuilds where
  builds : List Build := []
  current : String -> Option Nat := fun _ => none
  tests : String -> Option Waiting := fun _ => none
  waiting : String -> Bool := fun _ => false
  charges : String -> String -> Option BuildCharge := fun _ _ => none
  notices : List BuildNotice := []
  fates : List (String × Fate) := []

def Build.settled (build : Build) : Bool :=
  decide (build.state = .ready) || decide (build.state = .failed)

namespace PendingBuilds

variable (s : PendingBuilds) (requestId : String) (inputs : BuildInputs)

def charge (paid : Option Rat) : PendingBuilds :=
  let charge : BuildCharge :=
    { key := inputs.key
      component := inputs.component
      buildSeconds := paid.getD 0
      payment := if paid.isNone then .reused else .paid }
  { s with charges := fun other key =>
      if other = requestId ∧ key = inputs.key then some charge
      else s.charges other key }

def notify (outcome : BuildOutcome) (detail : String) : PendingBuilds :=
  { s with notices := s.notices ++ [⟨requestId, inputs.key, inputs.component, outcome, detail⟩] }

def setBuild (i : Nat) (build : Build) : PendingBuilds :=
  { s with builds := s.builds.set i build }

def leave (fate : Fate) : PendingBuilds :=
  { s with
    waiting := fun other =>
      if other = requestId then false else s.waiting other
    fates := s.fates ++ [(requestId, fate)] }

def discard (requestId key : String) : PendingBuilds :=
  { s with tests := fun other =>
      if other = requestId then
        (s.tests other).map fun test => { test with pending := test.pending.filter (· ≠ key) }
      else s.tests other }

/-!
## Waiting
-/

/-- `_ready_now`: in the store at the acceptance, or in this session. -/
def readyNow (need : BuildNeed) : Bool := need.stored.any BuildRecord.ready ||
  match s.current need.inputs.key with
  | none => false
  | some i => s.builds[i]?.any fun build => decide (build.state = .ready)

def newBuild : PendingBuilds :=
  { s with
    builds := s.builds ++ [{ inputs := inputs, waiters := [requestId] }]
    current := fun key =>
      if key = inputs.key then some s.builds.length else s.current key }

def join : PendingBuilds :=
  match s.current inputs.key with
  | none => s.newBuild requestId inputs
  | some i =>
    match s.builds[i]? with
    | none => s.newBuild requestId inputs
    | some build =>
      if build.state = .failed then s.newBuild requestId inputs
      else s.setBuild i { build with waiters := build.waiters ++ [requestId] }

/-- The loop of `wait`, with the keys it adds to `pending`. -/
def joinNeeds (requestId : String) : PendingBuilds -> List BuildNeed -> PendingBuilds × List String
  | s, [] => (s, [])
  | s, need :: rest =>
    if s.readyNow need then
      joinNeeds requestId (s.charge requestId need.inputs none) rest
    else
      let (t, pending) := joinNeeds requestId (s.join requestId need.inputs) rest
      (t, need.inputs.key :: pending)

def wait (needs : List BuildNeed) : PendingBuilds :=
  let (t, pending) := joinNeeds requestId s needs
  if pending.isEmpty then t
  else
    { t with
      tests := fun other =>
        if other = requestId then
          some ⟨needs.map fun need => need.inputs.key, pending⟩
        else t.tests other
      waiting := fun other =>
        if other = requestId then true else t.waiting other }

def forget : PendingBuilds :=
  let t := if s.waiting requestId then s.leave requestId .forgotten else s
  { t with charges := fun other =>
      if other = requestId then fun _ => none else s.charges other }

/-!
## Building
-/

variable (build : Build)

def stillWaiting : List String := build.waiters.filter s.waiting

/-- `_charge_waiters`, but for the clearing of the waiters. -/
def chargeWaiters (payer : Option String) : PendingBuilds :=
  (s.stillWaiting build).foldl (fun s requestId =>
    s.charge requestId build.inputs
      (if some requestId = payer then some build.buildSeconds else none)) s

def finishReady (i : Nat) (build : Build) (payer : Option String) : PendingBuilds :=
  (s.chargeWaiters build payer).setBuild i
    { build with state := .ready, waiters := [], task := .readyNext (s.stillWaiting build) }

def endBuild (i : Nat) (build : Build) (reason : BuildEnd)
    (payer : Option String) : PendingBuilds :=
  (s.chargeWaiters build payer).setBuild i
    { build with state := .failed, waiters := [], task := .endNext reason (s.stillWaiting build) }

/-- A loop takes its next test, up to the next await; `_finish_ready` raises
`KeyError` when the test is not in `_waiting` any more. -/
def takeNext (i : Nat) : PendingBuilds :=
  match s.builds[i]? with
  | none => s
  | some build =>
    match build.task with
    | .readyNext (requestId :: rest) =>
      if s.waiting requestId then
        ((s.discard requestId build.inputs.key).notify requestId build.inputs .ready "").setBuild i
            { build with task := .readyNotify requestId rest }
      else s.setBuild i { build with task := .raised }
    | .readyNext [] => s.setBuild i { build with task := .done }
    | .endNext reason (requestId :: rest) =>
      (s.leave requestId (.ended reason)).setBuild i { build with task := .endNext reason rest }
    | .endNext _ [] => s.setBuild i { build with task := .done }
    | _ => s

def infraReason (detail : String) : BuildEnd where
  failureClass := .infra
  reason := "the " ++ build.inputs.component ++ " build failed " ++
    toString build.infraFailures ++ " times for the machine: " ++ detail

variable (maxInfraRetries : Nat) (s : PendingBuilds)

/-- The loop of `_infra_failed` up to the next await, and what follows it. -/
def takeInfra (i : Nat) (build : Build) (detail : String) : List String -> PendingBuilds
  | requestId :: rest =>
    (s.notify requestId build.inputs .failed detail).setBuild i
      { build with task := .infraNext detail rest }
  | [] =>
    if maxInfraRetries < build.infraFailures then
      (s.endBuild i build (infraReason build detail) none).takeNext i
    else s.setBuild i { build with state := .queued, task := .sleeping }

def compileError : String := "compile_error"

def excerpt (failure : String) : String :=
  let lead := compileError ++ ": "
  if lead.toList.isPrefixOf failure.toList then
    String.ofList (failure.toList.drop lead.length)
  else failure

def refusedReason (text : String) : BuildEnd where
  failureClass := .infra
  reason := "the build store refused " ++ build.inputs.component ++ ": " ++ text

def candidateReason (failure : String) : BuildEnd where
  failureClass := .candidate
  reason := compileError ++ ": " ++ build.inputs.component ++ " " ++
    String.ofList (build.inputs.key.toList.take 12) ++ ": " ++ excerpt failure

/-- `_run` from the return of `ensure` to the next await. -/
def ensured (i : Nat) (build : Build) : Ensured -> PendingBuilds
  | .refused text =>
    (s.endBuild i build (refusedReason build text) none).takeNext i
  | .infraError detail =>
    let failed := { build with infraFailures := build.infraFailures + 1 }
    s.takeInfra maxInfraRetries i failed detail (s.stillWaiting build)
  | .record record reused =>
    let built := { build with buildSeconds := record.buildSeconds }
    let payer := if reused then none else (s.stillWaiting build).head?
    if record.ready then (s.finishReady i built payer).takeNext i
    else
      (s.endBuild i built (candidateReason build record.failure) payer).takeNext i

/-- A loop goes on after the await it is suspended in. -/
def resume (i : Nat) (build : Build) : Option PendingBuilds :=
  match build.task with
  | .readyNotify requestId rest =>
    match s.tests requestId with
    | none => none
    | some test =>
      if test.pending.isEmpty then
        if s.waiting requestId then
          some ((s.leave requestId .released).setBuild i { build with task := .readyNext rest })
        else some (s.setBuild i { build with task := .raised })
      else
        some ((s.setBuild i { build with task := .readyNext rest }).takeNext i)
  | .readyNext _ => some (s.takeNext i)
  | .endNext _ _ => some (s.takeNext i)
  | .infraNext detail rest =>
    some (s.takeInfra maxInfraRetries i build detail rest)
  | _ => none

end PendingBuilds

/-- The steps of the toolbox and its build tasks.  `hookRaised` is a ready or
ended hook that raises; a notice that is not delivered is only logged. -/
inductive BuildsOp where
  | wait (requestId : String) (needs : List BuildNeed)
  | forget (requestId : String)
  | run (i : Nat)
  | ensured (i : Nat) (answer : Ensured)
  | resume (i : Nat)
  | hookRaised (i : Nat)
deriving DecidableEq

section

variable (maxInfraRetries : Nat)

def buildsStep (s : PendingBuilds) : BuildsOp -> Option PendingBuilds
  | .wait requestId needs =>
    -- A request is accepted once.
    if (s.tests requestId).isNone then some (s.wait requestId needs)
    else none
  | .forget requestId => some (s.forget requestId)
  | .run i =>
    match s.builds[i]? with
    | none => none
    | some build =>
      if build.task = .created ∨ build.task = .sleeping then
        some (s.setBuild i { build with state := .building, task := .ensuring })
      else none
  | .ensured i answer =>
    match s.builds[i]? with
    | none => none
    | some build =>
      if build.task = .ensuring then
        some (s.ensured maxInfraRetries i build answer)
      else none
  | .resume i =>
    match s.builds[i]? with
    | none => none
    | some build => s.resume maxInfraRetries i build
  | .hookRaised i =>
    match s.builds[i]? with
    | none => none
    | some build =>
      match build.task with
      | .readyNext _ =>
        some (s.setBuild i { build with task := .raised })
      | .endNext _ _ =>
        some (s.setBuild i { build with task := .raised })
      | _ => none

def buildsMachine : Machine PendingBuilds BuildsOp where
  init s := s = {}
  step := buildsStep maxInfraRetries

end

/-- The tests the loop of a task has still to take out of `_waiting` or to tell
of its build. -/
def BuildTask.todo : BuildTask -> List String
  | .readyNotify requestId rest => requestId :: rest
  | .readyNext rest => rest
  | .endNext _ rest => rest
  | _ => []

namespace PendingBuilds

/-- No loop but that of build `i`, which goes on with `rest`, has still to take
the test. -/
def spared (s : PendingBuilds) (i : Nat) (requestId : String) (rest : List String) : Bool :=
  decide (requestId ∉ rest) && s.builds.zipIdx.all fun (build, j) =>
    decide (j = i) || decide (requestId ∉ build.task.todo)

/-- The first test an ending build takes out of `_waiting` is one no other loop
has still to take. -/
def sparedFirst (s : PendingBuilds) (i : Nat) : List String -> Bool
  | [] => true
  | requestId :: rest => s.spared i requestId rest

variable (maxInfraRetries : Nat) (s : PendingBuilds)

/-- A test leaves `_waiting` only when no other loop has still to take it, and
no hook raises. -/
def undisturbed : BuildsOp -> Bool
  | .forget requestId =>
    !s.waiting requestId || s.builds.all fun build => decide (requestId ∉ build.task.todo)
  | .ensured i answer =>
    match s.builds[i]? with
    | none => true
    | some build =>
      match answer with
      | .record record _ =>
        record.ready || s.sparedFirst i (s.stillWaiting build)
      | .refused _ => s.sparedFirst i (s.stillWaiting build)
      | .infraError _ => true
  | .resume i =>
    match s.builds[i]? with
    | none => true
    | some build =>
      match build.task with
      | .readyNotify requestId rest =>
        (s.tests requestId).any (fun test => !test.pending.isEmpty) || s.spared i requestId rest
      | .endNext _ rest => s.sparedFirst i rest
      | .infraNext _ [] =>
        decide (build.infraFailures ≤ maxInfraRetries) || s.sparedFirst i (s.stillWaiting build)
      | _ => true
  | .hookRaised _ => false
  | _ => true

def Undisturbed (op : BuildsOp) : Prop :=
  s.undisturbed maxInfraRetries op = true

instance (op : BuildsOp) : Decidable (s.Undisturbed maxInfraRetries op) :=
  inferInstanceAs (Decidable (_ = true))

end PendingBuilds

end Toolbox
end Hyperloom
