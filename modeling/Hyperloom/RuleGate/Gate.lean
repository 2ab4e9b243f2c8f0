import Hyperloom.Library.Machine
import Hyperloom.Library.Table
import Hyperloom.Blackboard.Board

/-!
# The rule gate

The one writer of specialist branches.  It lands what a judgement decides: a
commit in the repository first, then the fix's regression case, the judgement
and a fork's split on the blackboard, and a rewind of the commit when one of
these raises.  Every statement that waits is a step of its own, so calls
interleave; asking, landing and voiding take turns.
-/

namespace Hyperloom
namespace RuleGate

open Library (Machine Table)
open Blackboard

inductive Verdict where
  | improved
  | flat
  | regressed
  | needsConfirm
  | blocked
  | inconclusive
deriving DecidableEq

inductive AccuracyVerdict where
  | passed
  | failed
  | notMeasured
deriving DecidableEq

structure Judgement where
  verdict : Verdict
  accuracy : AccuracyVerdict
  requestIds : List String
  fixesCorrectness : Bool := false
deriving DecidableEq

inductive Action where
  | retest
  | commit
  | requestFork
  | diagnose
  | recordOnly
deriving DecidableEq

def commitTable : Verdict -> Bool -> Action
  | .needsConfirm, _ => .retest
  | .improved, _ => .commit
  | .blocked, _ => .diagnose
  | .inconclusive, _ => .recordOnly
  | .flat, false => .recordOnly
  | .flat, true => .commit
  | .regressed, false => .recordOnly
  | .regressed, true => .requestFork

def Judgement.decide (judgement : Judgement) : Action :=
  commitTable judgement.verdict (judgement.fixesCorrectness && judgement.accuracy == .passed)

def recordedAs (judgement : Judgement) : Conclusion :=
  if judgement.accuracy = .failed ∧ judgement.verdict ≠ .inconclusive then
    .accuracyFailed
  else .recordedOnly

/-!
## The gate's handle on the blackboard
-/

structure GateTest where
  request : TestRequest
  attachments : List String := []
  validity : Option Validity := none
  reproVerdict : Option String := none
deriving DecidableEq

inductive LineageKind where
  | root
  | opening
  | split
  | stop
  | reroot
  | probation
deriving DecidableEq

def LineageKind.value : LineageKind -> String
  | .root => "root"
  | .opening => "open"
  | .split => "split"
  | .stop => "stop"
  | .reroot => "reroot"
  | .probation => "probation"

def LineageKind.starts : LineageKind -> Bool
  | .root => true
  | .opening => true
  | .split => true
  | _ => false

structure LineageEvent where
  kind : LineageKind
  branch : String
  commitId : String := ""
  fromCommit : String := ""
  fromBranch : String := ""
  reason : String := ""
  recipeDigest : Option String := none
deriving DecidableEq

structure RegressionCase where
  caseRef : String
  fixCommit : String
  requestId : String
deriving DecidableEq

inductive GateRow where
  | judgement (write : JudgementWrite) (recipeDigest : Option String)
  | regression (case : RegressionCase)
  | lineage (event : LineageEvent)
deriving DecidableEq

/-- The latest state of each test first, and the rows in order. -/
structure GateBoard where
  tests : List GateTest := []
  rows : List GateRow := []
deriving DecidableEq

namespace GateBoard

variable (board : GateBoard)

def record (requestId : String) : Except BoardError GateTest :=
  match board.tests.find? fun test => test.request.requestId = requestId with
  | none => .error (.unknownRequest ("no test request " ++ requestId))
  | some test => .ok test

/-- The recipe digest of `lineage_view(state).commit(commit_id)`. -/
def digestOf (commitId : String) : Option (Option String) :=
  board.rows.findSome? fun row =>
    match row with
    | .judgement write digest =>
      if write.commitId = some commitId ∧ board.tests.any (fun test =>
            test.request.requestId = write.requestId) then some digest
      else none
    | .lineage event =>
      if event.kind = .root ∧ event.commitId = commitId then
        some event.recipeDigest
      else none
    | .regression _ => none

/-- `_check_recipe_digest`, for a digest as `Recipe.digest` writes it. -/
def checkRecipeDigest (commitId digest : Option String) : Except BoardError Unit :=
  match digest, commitId with
  | none, _ => .ok ()
  | some _, none => .error (.valueError
    "a recipe digest names the recipe of the commit a write makes")
  | some digest, some commitId =>
    match board.digestOf commitId with
    | some (some known) =>
      if known = digest then .ok ()
      else .error (.conflictingWrite ("commit " ++ commitId ++
        " was recorded with recipe " ++ known))
    | _ => .ok ()

/-- `write_judgement` with the gate's handle: the row it appends. -/
def writeJudgement (write : JudgementWrite)
    (digest : Option String) : Except BoardError (Option GateRow) := do
  let test <- board.record write.requestId
  let integration := decide (test.request.branch = integrationBranch)
  if integration then
    .error (.writerNotAllowed "gate may not write this; it belongs to integrator")
  else if write.conclusion.ofIntegration then
    .error (.writerNotAllowed (write.conclusion.value ++
      " is no conclusion for a test on " ++ test.request.branch))
  else
    match test.validity with
    | none => .error (.notRecorded ("request " ++ write.requestId ++ " has no result to judge"))
    | some .measurementFailed =>
      .error (.notRecorded ("the measurement of " ++ write.requestId ++
        " failed; there is nothing to judge"))
    | some _ =>
      if write.conclusion.committing ≠ write.commitId.isSome then
        .error (.valueError ("a " ++ write.conclusion.value ++
          " judgement names a commit exactly when it makes one"))
      else do
        board.checkRecipeDigest write.commitId digest
        .ok (some (.judgement write digest))

def notReproduced : String := "not_reproduced"

/-- `register_case`, with the append of `add_regression_case`. -/
def registerCase (fixCommit reproRequestId : String) : Except BoardError (Option GateRow) := do
  let test <- board.record reproRequestId
  if test.request.kind = .repro ∧ test.reproVerdict = some notReproduced then
    .ok (some (.regression ⟨", ".intercalate test.attachments, fixCommit, reproRequestId⟩))
  else
    .error (.valueError (reproRequestId ++ " is not a repro test whose case ran clean"))

variable (event : LineageEvent)

/-- `_check_lineage`, for the split events the gate writes. -/
def checkSplit : Except BoardError Unit :=
  let missing :=
    (if event.commitId = "" then ["commit_id"] else []) ++
    (if event.fromCommit = "" then ["from_commit"] else []) ++
    (if event.fromBranch = "" then ["from_branch"] else [])
  if missing ≠ [] then
    .error (.valueError ("a split event needs " ++ ", ".intercalate missing))
  else if event.branch = integrationBranch then
    .error (.valueError ("the root commit, and only it, starts the " ++
      integrationBranch ++ " branch"))
  else .ok ()

/-- `record_lineage` of a split: nothing is appended for an event that is
recorded. -/
def recordLineage : Except BoardError (Option GateRow) := do
  checkSplit event
  let recorded := board.rows.filterMap fun row =>
    match row with
    | .lineage other => if other.branch = event.branch then some other else none
    | _ => none
  if event ∈ recorded then .ok none
  else
    match recorded.find? fun other => other.kind.starts with
    | some other => .error (.conflictingWrite ("branch " ++ event.branch ++
      " already started with a " ++ other.kind.value ++ " event"))
    | none => .ok (some (.lineage event))

end GateBoard

/-!
## The repository
-/

/-- A branch: where it was cut and the commits on it since, newest first. -/
structure Branch where
  name : String
  base : String
  commits : List String := []
deriving DecidableEq

namespace Branch

def headOf (branch : Branch) (commits : List String) : String := commits.head?.getD branch.base

def head (branch : Branch) : String := branch.headOf branch.commits

variable (branch : Branch) (commit : String)

def push : Branch :=
  { branch with commits := commit :: branch.commits }

/-- What `update-ref` to `commit` leaves of the branch. -/
def resetTo : Branch :=
  if commit ∈ branch.commits then
    { branch with commits := branch.commits.dropWhile fun c => c ≠ commit }
  else { branch with base := commit, commits := [] }

theorem name_push : (branch.push commit).name = branch.name := rfl

theorem name_resetTo : (branch.resetTo commit).name = branch.name := by
  unfold resetTo
  split <;> rfl

end Branch

abbrev Branches := Table Branch Branch.name

/-!
## Calls
-/

/-- What asks for re-verified results first. -/
inductive GateTask where
  | settle (request : TestRequest) (judgement : Judgement) (fix : Option String)
  | fork (request : TestRequest) (judgement : Judgement) (reason : String) (fix : Option String)
  | repair (request : TestRequest) (judgement : Judgement)
deriving DecidableEq

def GateTask.request : GateTask -> TestRequest
  | .settle request _ _ => request
  | .fork request _ _ _ => request
  | .repair request _ => request

/-- `_Reserved`; the fix is the request id of its candidate run. -/
structure Reserved where
  request : TestRequest
  judgement : Judgement
  reason : String
  fix : Option String := none
deriving DecidableEq

/-- A commit to land: a fork's has its `reason`. -/
structure Landing where
  branch : String
  request : TestRequest
  judgement : Judgement
  fix : Option String
  reason : Option String
deriving DecidableEq

namespace Landing

variable (landing : Landing)

def parent : String := landing.request.parentCommit

def conclusion : Conclusion :=
  if landing.reason.isSome then .splitCommitted
  else if landing.judgement.fixesCorrectness then .committedWithRepro
  else .committed

def judgementWrite (commit : String) : JudgementWrite where
  requestId := landing.request.requestId
  conclusion := landing.conclusion
  commitId := some commit

def splitEvent (commit : String) : LineageEvent where
  kind := .split
  branch := landing.branch
  commitId := commit
  fromCommit := landing.parent
  fromBranch := landing.request.branch
  reason := landing.reason.getD ""

end Landing

inductive LockGoal where
  | ask (task : GateTask)
  | land (branch : String)
  | void (branch : String)
deriving DecidableEq

inductive GateCall where
  | verify (task : GateTask) (requestIds : List String)
  | wait (goal : LockGoal)
  | ask (task : GateTask)
  | record (requestId : String) (conclusion : Conclusion) (locked : Bool)
  | cut (landing : Landing)
  | commit (landing : Landing)
  | register (landing : Landing) (commit digest : String)
  | judge (landing : Landing) (commit digest : String)
  | split (landing : Landing) (commit : String)
  | rewind (landing : Landing) (commit : String)
deriving DecidableEq

def GateCall.locked : GateCall -> Bool
  | .verify _ _ => false
  | .wait _ => false
  | .ask _ => true
  | .record _ _ locked => locked
  | .cut _ => true
  | .commit landing => landing.reason.isSome
  | .register landing _ _ => landing.reason.isSome
  | .judge landing _ _ => landing.reason.isSome
  | .split landing _ => landing.reason.isSome
  | .rewind landing _ => landing.reason.isSome

def GateCall.landed : GateCall -> Option (Landing × String)
  | .register landing made _ => some (landing, made)
  | .judge landing made _ => some (landing, made)
  | .split landing made => some (landing, made)
  | .rewind landing made => some (landing, made)
  | _ => none

inductive AdmissionStatus where
  | accepted
  | pending
  | rejected
deriving DecidableEq

/-- What the environment answers a statement with.  `raised` says whether the
statement took effect first, and `madeRaised` is a commit that moved its branch
and raised. -/
inductive GateAnswer where
  | done
  | raised (effect : Bool)
  | unverified
  | admitted (status : AdmissionStatus) (branch : String)
  | wrote (result : WriteResult)
  | made (commit digest : String)
  | madeRaised (commit : String)
deriving DecidableEq

/-- The blackboard, the repository, the gate's reserved branches and its calls
in progress.  `root` is the baseline's commit and `rewound` are the commits
taken back and not made again since. -/
structure GateRun where
  root : String
  board : GateBoard := {}
  branches : Branches := Table.empty
  reserved : String -> Option Reserved := fun _ => none
  calls : List GateCall := []
  rewound : List String := []

namespace GateRun

variable (s : GateRun)

def OnBranch (commit : String) : Prop :=
  exists branch, branch ∈ s.branches ∧ commit ∈ branch.commits

instance (commit : String) : Decidable (s.OnBranch commit) :=
  inferInstanceAs (Decidable (exists branch, branch ∈ s.branches.rows ∧ commit ∈ branch.commits))

def append (row : Option GateRow) : GateRun :=
  { s with board := { s.board with rows := s.board.rows ++ row.toList } }

def write (checked : Except BoardError (Option GateRow)) (result : WriteResult) : GateRun × Bool :=
  match checked, result with
  | .error _, _ => (s, true)
  | .ok row, .ok => (s.append row, false)
  | .ok row, .failed true => (s.append row, true)
  | .ok _, .failed false => (s, true)

def reserve (branch : String) (reserved : Reserved) : GateRun :=
  if branch = "" then s
  else { s with reserved := Function.update s.reserved branch (some reserved) }

def forget (branch : String) : GateRun :=
  { s with reserved := Function.update s.reserved branch none }

def push (name commit : String) : GateRun :=
  { s with
    branches := s.branches.updateKey name (fun branch => branch.push commit)
      (fun branch => branch.name_push commit)
    rewound := s.rewound.filter fun other => other ≠ commit }

variable (landing : Landing)

/-- `rewind`, where the branch is still at the commit. -/
def takeBack (commit : String) : GateRun :=
  match s.branches.find? landing.branch with
  | none => s
  | some branch =>
    if branch.head = commit then
      { s with
        branches := s.branches.updateKey landing.branch
          (fun branch => branch.resetTo landing.parent)
          (fun branch => branch.name_resetTo landing.parent)
        rewound := commit :: s.rewound }
    else s

def enter : LockGoal -> GateRun × Option GateCall
  | .ask task => (s, some (.ask task))
  | .land branch =>
    match s.reserved branch with
    | some ⟨request, judgement, reason, some fix⟩ =>
      (s, some (.cut ⟨branch, request, judgement, some fix, some reason⟩))
    | _ => (s, none)
  | .void branch =>
    match s.reserved branch with
    | none => (s, none)
    | some voided =>
      (s.forget branch, some (.record voided.request.requestId (recordedAs voided.judgement) true))

/-- The conclusion `fork` and `repair` write and what they reserve. -/
def admission (task : GateTask) (status : AdmissionStatus) : Conclusion × Reserved :=
  match task with
  | .fork request judgement reason fix =>
    (match status with
      | .rejected => recordedAs judgement
      | .pending => .splitPending
      | .accepted => .splitRequested, ⟨request, judgement, reason, fix⟩)
  | .repair request judgement =>
    (match status with
      | .rejected => recordedAs judgement
      | _ => .repairRequested, ⟨request, judgement, "", none⟩)
  | .settle request judgement fix =>
    (recordedAs judgement, ⟨request, judgement, "", fix⟩)

/-- Where a task goes when its results are verified. -/
def verified : GateTask -> GateCall
  | .settle request judgement fix =>
    .commit ⟨request.branch, request, judgement, fix, none⟩
  | task => .wait (.ask task)

variable (answer : GateAnswer)

/-- `create_branch`: a branch that is there already is refused. -/
def cutStep : Option (GateRun × Option GateCall) :=
  if answer = .raised false then some (s, none)
  else
    match s.branches.insertNew ⟨landing.branch, landing.parent, []⟩ with
    | none => some (s, none)
    | some branches =>
      some ({ s with branches := branches },
        if answer = .done then some (.commit landing) else none)

/-- The commit is made: the branch is still at the parent and git gives an id
no branch holds. -/
def commitStep : Option (GateRun × Option GateCall) :=
  if answer = .raised false then some (s, none)
  else
    match s.branches.find? landing.branch with
    | none => some (s, none)
    | some branch =>
      if branch.head ≠ landing.parent then
        -- `BranchMoved`: a fork's landing raises it.
        if landing.reason.isSome then some (s, none)
        else some (s, some (.record landing.request.requestId (recordedAs landing.judgement) false))
      else
        match answer with
        | .made commit digest =>
          if commit = landing.parent ∨ commit = s.root ∨ s.OnBranch commit then none
          else
            some (s.push landing.branch commit, some (if landing.fix.isSome then
                .register landing commit digest
              else .judge landing commit digest))
        | .madeRaised commit =>
          if commit = landing.parent ∨ commit = s.root ∨ s.OnBranch commit then none
          else some (s.push landing.branch commit, none)
        | _ => none

/-- One statement of a call: the state after it and the call's next one. -/
def statement : GateCall -> GateAnswer -> Option (GateRun × Option GateCall)
  | .verify task (_ :: rest), .done => some (s, some (.verify task rest))
  | .verify task (_ :: _), .unverified =>
    some (s, some (.record task.request.requestId .unverified false))
  | .verify _ (_ :: _), .raised _ => some (s, none)
  | .verify task [], .done => some (s, some (verified task))
  | .wait goal, .done =>
    if s.calls.any GateCall.locked then none else some (s.enter goal)
  | .ask task, .admitted status branch =>
    -- An admission names its branch exactly when it is not rejected.
    if (branch ≠ "") = (status ≠ .rejected) then
      let answer := admission task status
      some (s.reserve branch answer.2, some (.record task.request.requestId answer.1 true))
    else none
  | .ask _, .raised _ => some (s, none)
  | .record requestId conclusion _, .wrote result =>
    some ((s.write (s.board.writeJudgement ⟨requestId, conclusion, none⟩ none) result).1, none)
  | .cut landing, answer => s.cutStep landing answer
  | .commit landing, answer => s.commitStep landing answer
  | .register landing commit digest, .wrote result =>
    let written := s.write (s.board.registerCase commit (landing.fix.getD "")) result
    some (written.1, some (if written.2 then .rewind landing commit
      else .judge landing commit digest))
  | .judge landing commit digest, .wrote result =>
    let written := s.write
      (s.board.writeJudgement (landing.judgementWrite commit) (some digest)) result
    some (written.1, if written.2 then some (.rewind landing commit)
      else if landing.reason.isSome then some (.split landing commit)
      else none)
  | .split landing commit, .wrote result =>
    let written := s.write (s.board.recordLineage (landing.splitEvent commit)) result
    if written.2 then some (written.1, some (.rewind landing commit))
    else some (written.1.forget landing.branch, none)
  | .rewind landing commit, answer =>
    if answer = .raised false then some (s, none)
    else some (s.takeBack landing commit, none)
  | _, _ => none

end GateRun

/-- Calls of the gate, their statements, and what others write: the tests'
rows, rows that neither commit nor split, the regression case of the baseline's
root, and where a branch without commits of its own stands. -/
inductive GateOp where
  | settle (request : TestRequest) (judgement : Judgement) (fix : Option String)
  | decline (request : TestRequest) (judgement : Judgement)
  | fork (request : TestRequest) (judgement : Judgement) (reason : String) (fix : Option String)
  | repair (request : TestRequest) (judgement : Judgement)
  | landSplit (branch : String)
  | settleVoided (branch : String)
  | advance (call : GateCall) (answer : GateAnswer)
  | test (test : GateTest)
  | otherRow (row : GateRow)
  | moveBranch (name base : String)
deriving DecidableEq

/-- What a row says of a commit. -/
inductive NameKind where
  | judged
  | cased
  | split
deriving DecidableEq

/-- The commit a row names: a judgement that commits, a regression case or a
split. -/
def GateRow.names : GateRow -> Option (NameKind × String)
  | .judgement write _ =>
    if write.conclusion.committing then
      write.commitId.map fun commit => (.judged, commit)
    else none
  | .regression case => some (.cased, case.fixCommit)
  | .lineage event =>
    if event.kind = .split then some (.split, event.commitId) else none

def lacksProof (judgement : Judgement) (fix : Option String) : Bool :=
  judgement.fixesCorrectness && fix.isNone

namespace GateRun

def begin (s : GateRun) (call : GateCall) : GateRun := { s with calls := s.calls ++ [call] }

/-- `settle`: a retest or a fork is its caller's next step. -/
def settle (s : GateRun) (request : TestRequest) (judgement : Judgement)
    (fix : Option String) : Option GateRun :=
  match judgement.decide with
  | .commit =>
    if lacksProof judgement fix then none
    else some (s.begin (.verify (.settle request judgement fix) judgement.requestIds))
  | .recordOnly =>
    some (s.begin (.record request.requestId (recordedAs judgement) false))
  | .diagnose =>
    some (s.begin (.record request.requestId .diagnosisPending false))
  | _ => none

end GateRun

def gateStep (s : GateRun) : GateOp -> Option GateRun
  | .settle request judgement fix => s.settle request judgement fix
  | .decline request judgement =>
    if judgement.decide = .diagnose then
      some (s.begin (.record request.requestId (recordedAs judgement) false))
    else none
  | .fork request judgement reason fix =>
    if judgement.decide = .requestFork ∧ lacksProof judgement fix = false then
      some (s.begin (.verify (.fork request judgement reason fix) judgement.requestIds))
    else none
  | .repair request judgement =>
    some (s.begin (.verify (.repair request judgement) judgement.requestIds))
  | .landSplit branch => some (s.begin (.wait (.land branch)))
  | .settleVoided branch => some (s.begin (.wait (.void branch)))
  | .advance call answer =>
    if call ∈ s.calls then
      (s.statement call answer).map fun next =>
        { next.1 with calls := next.2.toList ++ s.calls.erase call }
    else none
  | .test test =>
    some { s with board := { s.board with tests := test :: s.board.tests } }
  | .otherRow row =>
    if row.names = none ∨ row.names = some (.cased, s.root) then
      some (s.append (some row))
    else none
  | .moveBranch name base =>
    match s.branches.find? name with
    | some branch =>
      if branch.commits = [] then
        some { s with branches := s.branches.insertOrReplace ⟨name, base, []⟩ }
      else none
    | none =>
      some { s with branches := s.branches.insertOrReplace ⟨name, base, []⟩ }

def gateMachine : Machine GateRun GateOp where
  init s := s = { root := s.root }
  step := gateStep

end RuleGate
end Hyperloom
