import Hyperloom.Library.NumberedFiles

/-!
# Claims

Which branch holds which (parent commit, intent) key.  Every change of a claim
writes the next generation file of the key's token, exclusively; the highest
generation is in force and expiry is derived from `expires_at`.  The digest in
a token and in an intent's fingerprint is a parameter wherever one is needed.
-/

namespace Hyperloom
namespace Blackboard

open Library

inductive Role where
  | toolbox
  | gate
  | integrator
  | scheduler
  | specialistRuntime
  | observer
deriving DecidableEq

structure Writer where
  role : Role
  name : String
  branch : String := ""
deriving DecidableEq

inductive ClaimStatus where
  | held
  | completed
  | released
  | expired
deriving DecidableEq

def ClaimStatus.value : ClaimStatus -> String
  | .held => "held"
  | .completed => "completed"
  | .released => "released"
  | .expired => "expired"

inductive IntentLayer where
  | config
  | source
  | kernel
deriving DecidableEq

/-- What a specialist is about to try on a commit.  `fingerprint` is the digest
of target, mechanism and layer. -/
structure Intent where
  branch : String
  parentCommit : String
  target : String
  mechanism : String
  layer : IntentLayer
  targetSharePct : Option Rat := none
  fingerprint : String
deriving DecidableEq

structure ClaimKey where
  parentCommit : String
  intentFingerprint : String
deriving DecidableEq

structure Claim where
  key : ClaimKey
  holder : String
  intent : Intent
  actionFingerprint : String
  ttlSeconds : Rat
  acquiredAt : Rat
  heartbeatAt : Rat
  expiresAt : Rat
  status : ClaimStatus
  requestId : Option String := none
  generation : Nat := 0
deriving DecidableEq

variable (claim : Claim)

def isLive (now : Rat) : Bool := claim.status = .held && now < claim.expiresAt

def wantedClaim (intent : Intent) (actionFingerprint : String) (ttlSeconds now : Rat) : Claim where
  key := ⟨intent.parentCommit, intent.fingerprint⟩
  holder := intent.branch
  intent := intent
  actionFingerprint := actionFingerprint
  ttlSeconds := ttlSeconds
  acquiredAt := now
  heartbeatAt := now
  expiresAt := now + ttlSeconds
  status := .held

/-!
## The changes of a claim

What `renew`, `attach_request`, `_settle_claim`, `release` and
`release_branch` make of the claim in force.  A change that is not the
caller's to make raises `ClaimLost`, whose text is kept.
-/

/-- The fields of a request that name the claim it measures. -/
structure Claimant where
  branch : String
  requestId : String
deriving DecidableEq

inductive Change where
  | renew (writer : Writer) (ttlSeconds now : Rat)
  | attach (request : Claimant) (ttlSeconds now : Rat)
  | settle (request : Claimant) (status : ClaimStatus) (now : Rat)
  | release (writer : Writer) (now : Rat)
  | releaseBranch (branch : String) (now : Rat)
deriving DecidableEq

/-- `_check_holds`: whether the writer may renew or release the claim. -/
def mayChange (writer : Writer) (claim : Claim) : Bool :=
  decide (writer.role = .scheduler) || (decide (writer.role = .specialistRuntime) &&
    decide (claim.holder = writer.branch)) ||
  (decide (writer.role = .toolbox) && claim.requestId.isSome)

def Claimant.owns (request : Claimant) (claim : Claim) : Bool :=
  decide (claim.holder = request.branch) &&
  (claim.requestId.isNone || decide (claim.requestId = some request.requestId))

def notYours (name : String) : String :=
  "the claim on " ++ claim.key.parentCommit ++ " is not " ++ name ++ "'s to change"

def released (now : Rat) : Except String Claim :=
  if claim.status ≠ .held then
    .error ("the claim on " ++ claim.key.parentCommit ++ " is " ++ claim.status.value)
  else .ok { claim with status := .released, heartbeatAt := now }

def Change.apply (change : Change) (claim : Claim) : Except String Claim :=
  match change with
  | .renew writer ttlSeconds now =>
    if claim.status ≠ .held || !mayChange writer claim then
      .error (notYours claim writer.name)
    else .ok { claim with heartbeatAt := now, expiresAt := now + ttlSeconds }
  | .attach request ttlSeconds now =>
    if claim.status ≠ .held || !request.owns claim then
      .error ("the claim on " ++ claim.key.parentCommit ++
        " is not the one " ++ request.requestId ++ " measures")
    else .ok { claim with
      requestId := some request.requestId
      heartbeatAt := now
      expiresAt := now + ttlSeconds }
  | .settle request status now =>
    if claim.status ≠ .held || !request.owns claim then
      .error ("the claim on " ++ claim.key.parentCommit ++
        " is not the claim of " ++ request.requestId)
    else .ok { claim with
      status := status
      requestId := some request.requestId
      heartbeatAt := now }
  | .release writer now =>
    if claim.status ≠ .held || !mayChange writer claim then
      .error (notYours claim writer.name)
    else released claim now
  -- The branch was tested on the claim that was listed, not on this one.
  | .releaseBranch _ now => released claim now

def Change.ends : Change -> Bool
  | .renew _ _ _ => false
  | .attach _ _ _ => false
  | .settle _ _ _ => true
  | .release _ _ => true
  | .releaseBranch _ _ => true

/-- A branch release changes a claim of its branch. -/
def Change.ofHolder (holder : String) : Change -> Bool
  | .releaseBranch branch _ => holder = branch
  | _ => true

variable {claim changed : Claim}

theorem released_ok {now : Rat} (h : released claim now = .ok changed) :
    claim.status = .held ∧ changed.holder = claim.holder ∧ changed.key = claim.key := by
  unfold released at h
  split at h
  · cases h
  rename_i hheld
  cases h
  exact ⟨by simpa using hheld, rfl, rfl⟩

/-- What every change keeps: it is made of a held claim, and the holder and
the key stay. -/
theorem Change.apply_ok {change : Change} (h : change.apply claim = .ok changed) :
    claim.status = .held ∧ changed.holder = claim.holder ∧ changed.key = claim.key := by
  cases change with
  | release writer now =>
    simp only [Change.apply] at h
    split at h
    · cases h
    · exact released_ok h
  | releaseBranch branch now => exact released_ok h
  | _ =>
    simp only [Change.apply] at h
    split at h
    · cases h
    rename_i hheld
    cases h
    exact ⟨by simp at hheld; exact hheld.left, rfl, rfl⟩

theorem Change.held_of_not_ends {change : Change}
    (h : change.apply claim = .ok changed) (hends : change.ends = false) :
    changed.status = .held := by
  have hheld := (Change.apply_ok h).left
  cases change with
  | settle request status now | release writer now | releaseBranch branch now => cases hends
  | _ =>
    simp only [Change.apply] at h
    split at h
    · cases h
    · cases h
      exact hheld

/-!
## The claim files
-/

/-- How a generation came to be: acquired at a clock reading, or changed. -/
inductive Origin where
  | acquired (now : Rat)
  | changed (change : Change)
deriving DecidableEq

/-- A claim file, with how it was made, which the file does not say. -/
structure Generation where
  claim : Claim
  origin : Origin
deriving DecidableEq

abbrev ClaimFiles := Folder String Generation

/-- A listing shows the generations whose name has six digits. -/
def listed (generation : Nat) : Bool := generation < 1000000

def changeAttempts : Nat := 8

def allCurrent (files : ClaimFiles) : List Claim :=
  (files.names.mergeSort (· ≤ ·)).filterMap fun token =>
    match files.latest listed token with
    | none => none
    | some generation =>
      (files.load token generation).map Generation.claim

inductive CallResult where
  | acquired (claim : Claim)
  | leaseTaken (claim : Claim)
  | changed (claim : Claim)
  | claimLost (message : String)
  | fileMissing
  | branchReleased
deriving DecidableEq

/-- Where a call stands between two accesses of the claims folder.  `attempts`
counts the tries left, this one included, and `rest` are the keys a branch
release still has to change. -/
inductive CallPhase where
  | ended (result : Option CallResult)
  | acquireList (wanted : Claim) (now : Rat)
  | acquireLoad (wanted : Claim) (now : Rat) (latest : Option Nat)
  | acquirePublish (acquired : Claim) (now : Rat)
  | branchList (branch : String) (now : Rat)
  | changeList (key : ClaimKey) (change : Change) (attempts : Nat) (rest : List ClaimKey)
  | changeLoad (key : ClaimKey) (change : Change) (attempts : Nat)
    (rest : List ClaimKey) (latest : Option Nat)
  | changePublish (key : ClaimKey) (change : Change) (attempts : Nat)
    (rest : List ClaimKey) (changed : Claim)
deriving DecidableEq

/-- One change of a branch release is over; the next key follows. -/
def nextChange (change : Change) (rest : List ClaimKey) (result : CallResult) : CallPhase :=
  match rest with
  | [] => .ended (some result)
  | key :: rest => .changeList key change changeAttempts rest

section

variable (token : ClaimKey -> String)

/-- One access of the claims folder: what the call does next, and the folder
after it. -/
def advanceCall (files : ClaimFiles) : CallPhase -> Option (CallPhase × ClaimFiles)
  | .ended _ => none
  | .acquireList wanted now =>
    some (.acquireLoad wanted now (files.latest listed (token wanted.key)), files)
  | .acquireLoad wanted now none =>
    some (.acquirePublish { wanted with generation := 1 } now, files)
  | .acquireLoad wanted now (some generation) =>
    match files.load (token wanted.key) generation with
    | none => some (.ended (some .fileMissing), files)
    | some current =>
      if isLive current.claim now then
        some (.ended (some (.leaseTaken current.claim)), files)
      else
        some (.acquirePublish { wanted with generation := current.claim.generation + 1 } now, files)
  | .acquirePublish acquired now =>
    match files.publishOnce ⟨token acquired.key, acquired.generation, acquired, .acquired now⟩ with
    | some published => some (.ended (some (.acquired acquired)), published)
    | none =>
      match files.load (token acquired.key) acquired.generation with
      | none => some (.ended (some .fileMissing), files)
      | some taken => some (.ended (some (.leaseTaken taken.claim)), files)
  | .branchList branch now =>
    let held := (allCurrent files).filter fun claim =>
      decide (claim.holder = branch) && decide (claim.status = .held)
    some (nextChange (.releaseBranch branch now) (held.map Claim.key) .branchReleased, files)
  | .changeList key change attempts rest =>
    some (.changeLoad key change attempts rest (files.latest listed (token key)), files)
  | .changeLoad key change _ rest none =>
    some (nextChange change rest (.claimLost ("nobody claimed " ++
      key.intentFingerprint ++ " on " ++ key.parentCommit)), files)
  | .changeLoad key change attempts rest (some generation) =>
    match files.load (token key) generation with
    | none => some (nextChange change rest .fileMissing, files)
    | some current =>
      match change.apply current.claim with
      | .error message =>
        some (nextChange change rest (.claimLost message), files)
      | .ok changed =>
        some (.changePublish key change attempts rest
          { changed with generation := current.claim.generation + 1 }, files)
  | .changePublish key change attempts rest changed =>
    match files.publishOnce ⟨token key, changed.generation, changed, .changed change⟩ with
    | some published =>
      some (nextChange change rest (.changed changed), published)
    | none =>
      if attempts ≤ 1 then
        some (nextChange change rest (.claimLost ("the claim on " ++
          key.parentCommit ++ " kept changing under 8 attempts")), files)
      else some (.changeList key change (attempts - 1) rest, files)

end

end Blackboard
end Hyperloom
