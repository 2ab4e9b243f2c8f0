import Hyperloom.Blackboard.Board
import Hyperloom.Blackboard.ClaimExclusion

/-!
# The settlement of a claim

A test's outcome ends the claim its request measures: the toolbox settles it
in the generation after the one in force.  What a handle's call may publish
without making the claim held for the request again, and what the settlement
has found at each access of the claims folder.
-/

namespace Hyperloom
namespace Blackboard

open Library

inductive Outcome where
  | measured (result : TestResult)
  | withdrawn (withdrawal : Withdrawal)
deriving DecidableEq

def Outcome.requestId : Outcome -> String
  | .measured result => result.requestId
  | .withdrawn withdrawal => withdrawal.requestId

def Board.writeOutcome (board : Board) (handle : BoardHandle) (now : Rat) :
    Outcome -> Except BoardError (List (Entry Payload))
  | .measured result => board.writeResult handle now result
  | .withdrawn withdrawal => board.writeWithdrawal handle now withdrawal

/-- What `_settle_claim` makes of the claim: completed by a result, released
when nothing was measured. -/
def Outcome.claimStatus : Outcome -> ClaimStatus
  | .measured result =>
    if result.validity = .measurementFailed then .released else .completed
  | .withdrawn _ => .released

theorem Outcome.claimStatus_ne_held (outcome : Outcome) : outcome.claimStatus ≠ .held := by
  cases outcome with
  | measured result =>
    by_cases hfailed : result.validity = .measurementFailed
    · rw [Outcome.claimStatus, if_pos hfailed]
      decide
    · rw [Outcome.claimStatus, if_neg hfailed]
      decide
  | withdrawn withdrawal =>
    intro heq
    cases heq

section

variable (request : TestRequest)

def claimKey : Option ClaimKey :=
  request.intentFingerprint.map (ClaimKey.mk request.parentCommit)

def claimant : Claimant := ⟨request.branch, request.requestId⟩

def settleClaim (outcome : Outcome) (now : Rat) : CallPhase :=
  match claimKey request with
  | none => .ended none
  | some key =>
    .changeList key (.settle (claimant request) outcome.claimStatus now) changeAttempts []

def inForce (files : ClaimFiles) (name : String) : Option Generation :=
  match files.latest listed name with
  | none => none
  | some generation => files.load name generation

def HeldFor (claim : Claim) : Prop :=
  claim.status = .held ∧ claim.holder = request.branch ∧ claim.requestId = some request.requestId

instance (claim : Claim) : Decidable (HeldFor request claim) := by
  unfold HeldFor
  infer_instance

end

/-!
## The generation in force after a publication
-/

def Over (token : ClaimKey -> String) (files : ClaimFiles) (request : TestRequest) : Prop :=
  forall key file, claimKey request = some key ->
    inForce files (token key) = some file -> ¬ HeldFor request file.claim

variable {token : ClaimKey -> String} {files more : ClaimFiles}
  {file : NumberedFile String Generation} {request : TestRequest} {change : Change}
  {phase next : CallPhase} {name requestId : String} {key : ClaimKey}

theorem inForce_of_latest {n : Nat} (h : files.latest listed name = some n) :
    inForce files name = files.load name n := by
  rw [inForce, h]

section

variable {published : ClaimFiles} (hpublish : files.publishOnce file = some published)

include hpublish

theorem inForce_publishOnce_of_hidden
    (hhidden : file.name = name -> listed file.number = false) :
    inForce published name = inForce files name := by
  have hlatest : published.latest listed name = files.latest listed name := by
    rw [(Folder.publishOnce_eq_some hpublish).right]
    exact Folder.latest_append_of_hidden hhidden
  cases hfound : files.latest listed name with
  | none => rw [inForce, inForce, hlatest, hfound]
  | some n =>
    rw [hfound] at hlatest
    rw [inForce_of_latest hlatest, inForce_of_latest hfound]
    rcases Folder.exists_load_of_latest hfound with ⟨value, hvalue⟩
    rw [hvalue]
    exact Folder.load_publishOnce_of_some hpublish hvalue

variable (hchain : files.Chain Follows)

include hchain

theorem inForce_publishOnce (hone : 1 ≤ file.number)
    (hlisted : listed file.number = true) : inForce published file.name = some file.value := by
  rw [inForce_of_latest (hchain.latest_publishOnce hone hpublish hlisted),
    (Folder.publishOnce_eq_some hpublish).right, Folder.load_append,
    (Folder.publishOnce_eq_some hpublish).left]
  simp

theorem inForce_of_publishOnce {seen : Nat} {p : Generation} (hnumber : file.number = seen + 1)
    (hseen : files.load file.name seen = some p) (hlisted : listed file.number = true) :
    inForce files file.name = some p := by
  have hnext := (Folder.publishOnce_eq_some hpublish).left
  rw [hnumber] at hnext
  have hbefore : listed seen = true := by
    unfold listed at hlisted ⊢
    lia
  rw [inForce_of_latest (hchain.latest_of_load hseen hnext hbefore)]
  exact hseen

/-- A publication keeps a claim over if what it publishes is held for the
request only after a generation that was. -/
theorem Over.publishOnce (hover : Over token files request) (hone : 1 ≤ file.number)
    (hheld : listed file.number = true -> HeldFor request file.value.claim ->
      exists p, inForce files file.name = some p ∧ HeldFor request p.claim) :
    Over token published request := by
  intro key found hkey hfound hfor
  by_cases hnew : file.name = token key ∧ listed file.number = true
  · rw [← hnew.left, inForce_publishOnce hpublish hchain hone hnew.right] at hfound
    cases hfound
    rcases hheld hnew.right hfor with ⟨p, hp, hbefore⟩
    rw [hnew.left] at hp
    exact hover key p hkey hp hbefore
  · rw [inForce_publishOnce_of_hidden hpublish] at hfound
    · exact hover key found hkey hfound hfor
    · intro hname
      cases hlisted : listed file.number with
      | false => rfl
      | true => exact absurd ⟨hname, hlisted⟩ hnew

end

/-!
## The calls that leave a request's claim over
-/

def Change.Spares (requestId : String) : Change -> Prop
  | .attach request _ _ => request.requestId ≠ requestId
  | .settle _ status _ => status ≠ .held
  | _ => True

def CallPhase.Spares (requestId : String) : CallPhase -> Prop
  | .acquireList wanted _ => wanted.requestId = none
  | .acquireLoad wanted _ _ => wanted.requestId = none
  | .acquirePublish acquired _ => acquired.requestId = none
  | .changeList _ change _ _ => change.Spares requestId
  | .changeLoad _ change _ _ _ => change.Spares requestId
  | .changePublish _ change _ _ _ => change.Spares requestId
  | .branchList _ _ => True
  | .ended _ => True

theorem spares_nextChange {rest : List ClaimKey} {result : CallResult}
    (h : change.Spares requestId) : (nextChange change rest result).Spares requestId := by
  cases rest with
  | nil => trivial
  | cons key rest => exact h

theorem released_not_held {claim changed : Claim} {now : Rat}
    (h : released claim now = .ok changed) : changed.status ≠ .held := by
  unfold released at h
  split at h
  · cases h
  · cases h
    simp

theorem Change.Spares.heldFor {claim changed : Claim} (hspares : change.Spares request.requestId)
    (happly : change.apply claim = .ok changed) (hheld : HeldFor request changed) :
    HeldFor request claim := by
  have hsame := Change.apply_ok happly
  refine ⟨hsame.left, hsame.right.left ▸ hheld.right.left, ?_⟩
  revert happly
  fun_cases Change.apply change claim with (intro happly; try cases happly)
  | case2 => exact hheld.right.right
  | case4 => exact absurd (Option.some.inj hheld.right.right) hspares
  | case6 => exact absurd hheld.left hspares
  | _ => exact absurd hheld.left (released_not_held happly)

/-- An access of the folder by a call that spares a request leaves its claim
over, and the call goes on sparing it. -/
theorem advanceCall_spares (hchain : files.Chain Follows) (hknows : Knows token files phase)
    (hspares : phase.Spares requestId) (h : advanceCall token files phase = some (next, more)) :
    next.Spares requestId ∧ forall request, request.requestId = requestId ->
        Over token files request -> Over token more request := by
  have hsame : forall request : TestRequest, request.requestId = requestId ->
      Over token files request -> Over token files request :=
    fun _ _ hover => hover
  revert hknows hspares h
  fun_cases advanceCall token files phase with (intro hknows hspares h; cases h)
  | case7 acquired now published hpublish =>
    rcases hknows with ⟨_, seen, hgeneration, _⟩
    refine ⟨trivial, ?_⟩
    intro request hid hover
    apply hover.publishOnce hpublish hchain (by dsimp only; lia)
    -- An acquired claim is held for no request.
    intro _ hheld
    have hnone : acquired.requestId = none := hspares
    rw [HeldFor, hnone] at hheld
    cases hheld.right.right
  | case16 key change attempts rest changed published hpublish =>
    rcases hknows with ⟨seen, p, made, hp, hgeneration, happly, rfl⟩
    refine ⟨spares_nextChange hspares, ?_⟩
    intro request hid hover
    apply hover.publishOnce hpublish hchain (by dsimp only; lia)
    intro hlisted hheld
    refine ⟨p, inForce_of_publishOnce hpublish hchain hgeneration hp hlisted, ?_⟩
    apply Change.Spares.heldFor (hid ▸ hspares) happly
    exact hheld
  | case4 | case5 | case8 | case9 => exact ⟨trivial, hsame⟩
  | case10 => exact ⟨spares_nextChange trivial, hsame⟩
  | case12 | case13 | case14 | case17 => exact ⟨spares_nextChange hspares, hsame⟩
  | _ => exact ⟨hspares, hsame⟩

/-!
## The settlement
-/

def Settlement (request : TestRequest) (change : Change) : Prop :=
  exists status now, change = .settle (claimant request) status now ∧ status ≠ .held

theorem Settlement.spares (h : Settlement request change) (requestId : String) :
    change.Spares requestId := by
  rcases h with ⟨status, now, rfl, hstatus⟩
  exact hstatus

theorem Settlement.apply_heldFor {claim : Claim} (h : Settlement request change)
    (hheld : HeldFor request claim) : exists changed, change.apply claim = .ok changed := by
  rcases h with ⟨status, now, rfl, _⟩
  rcases hheld with ⟨hstatus, hholder, hrequest⟩
  refine ⟨{ claim with
    status := status, requestId := some request.requestId, heartbeatAt := now }, ?_⟩
  simp [Change.apply, Claimant.owns, claimant, hstatus, hholder, hrequest]

theorem Settlement.not_held {claim changed : Claim} (h : Settlement request change)
    (happly : change.apply claim = .ok changed) : changed.status ≠ .held := by
  rcases h with ⟨status, now, rfl, hstatus⟩
  simp only [Change.apply] at happly
  split at happly
  · cases happly
  · cases happly
    exact hstatus

/-- What the settlement of a request has found so far.  Between the listing
and the load, what was listed is held for the request or nothing was to be
settled. -/
def Settling (token : ClaimKey -> String) (files : ClaimFiles)
    (request : TestRequest) : CallPhase -> Prop
  | .changeList key change _ rest =>
    claimKey request = some key ∧ Settlement request change ∧ rest = []
  | .changeLoad key change _ rest latest =>
    claimKey request = some key ∧ Settlement request change ∧ rest = [] ∧
    (Over token files request ∨
      exists n file, latest = some n ∧
        files.load (token key) n = some file ∧ HeldFor request file.claim)
  | .changePublish key change _ rest _ =>
    claimKey request = some key ∧ Settlement request change ∧ rest = []
  | .ended _ => Over token files request
  | _ => False

theorem Settling.spares (h : Settling token files request phase) (requestId : String) :
    phase.Spares requestId := by
  cases phase with
  | changeList key change attempts rest => exact h.right.left.spares requestId
  | changeLoad key change attempts rest latest | changePublish key change attempts rest changed =>
    exact h.right.left.spares requestId
  | ended result => trivial
  | _ => cases h

theorem Settling.mono (hmore : Extends files more)
    (hover : Over token files request -> Over token more request)
    (h : Settling token files request phase) : Settling token more request phase := by
  cases phase with
  | changeList key change attempts rest => exact h
  | changeLoad key change attempts rest latest =>
    rcases h with ⟨hkey, hchange, hrest, hover' | hheld⟩
    · exact ⟨hkey, hchange, hrest, Or.inl (hover hover')⟩
    · rcases hheld with ⟨n, file, hn, hfile, hfor⟩
      exact ⟨hkey, hchange, hrest, Or.inr ⟨n, file, hn, hmore _ _ _ hfile, hfor⟩⟩
  | changePublish key change attempts rest changed => exact h
  | ended result => exact hover h
  | _ => cases h

theorem settling_settleClaim (token : ClaimKey -> String) (files : ClaimFiles)
    (request : TestRequest) (outcome : Outcome) (now : Rat) :
    Settling token files request (settleClaim request outcome now) := by
  cases hkey : claimKey request with
  | none =>
    rw [settleClaim, hkey]
    intro key file hsome
    rw [hkey] at hsome
    cases hsome
  | some key =>
    rw [settleClaim, hkey]
    exact ⟨hkey, ⟨_, _, rfl, outcome.claimStatus_ne_held⟩, rfl⟩

/-- Whether an access of the folder by the settlement meets the condition. -/
def NotBeaten (token : ClaimKey -> String) (files : ClaimFiles) : CallPhase -> Prop
  | .changePublish key _ attempts _ changed =>
    match files.load (token key) changed.generation with
    | some _ => 1 < attempts
    | none => listed changed.generation = true
  | _ => True

theorem Settling.listed (hkey : claimKey request = some key) : Over token files request ∨
      exists n file, files.latest listed (token key) = some n ∧
        files.load (token key) n = some file ∧ HeldFor request file.claim := by
  cases hlatest : files.latest Blackboard.listed (token key) with
  | none =>
    left
    intro other file hother hforce
    rw [hkey] at hother
    rw [← Option.some.inj hother, inForce, hlatest] at hforce
    cases hforce
  | some n =>
    rcases Folder.exists_load_of_latest hlatest with ⟨file, hfile⟩
    by_cases hheld : HeldFor request file.claim
    · exact Or.inr ⟨n, file, rfl, hfile, hheld⟩
    · left
      intro other found hother hforce
      rw [hkey] at hother
      rw [← Option.some.inj hother, inForce_of_latest hlatest, hfile] at hforce
      cases hforce
      exact hheld

theorem Settling.published {published : ClaimFiles} {changed : Claim} (hchain : files.Chain Follows)
    (hkey : claimKey request = some key) (hheld : changed.status ≠ .held)
    (hone : 1 ≤ changed.generation) (hlisted : Blackboard.listed changed.generation = true)
    (hpublish : files.publishOnce
      ⟨token key, changed.generation, changed, .changed change⟩ = some published) :
    Over token published request := by
  intro other file hother hforce hfor
  rw [hkey] at hother
  rw [← Option.some.inj hother] at hforce
  have hnew := inForce_publishOnce hpublish hchain hone hlisted
  rw [hnew] at hforce
  cases hforce
  exact hheld hfor.left

theorem Settling.advance (hchain : files.Chain Follows) (hknows : Knows token files phase)
    (h : Settling token files request phase) (hbeaten : NotBeaten token files phase)
    (hadvance : advanceCall token files phase = some (next, more)) :
    Settling token more request next := by
  revert hknows h hbeaten hadvance
  fun_cases advanceCall token files phase with (intro hknows h hbeaten hadvance; cases hadvance)
  | case11 => exact ⟨h.left, h.right.left, h.right.right, Settling.listed h.left⟩
  | case12 =>
    rcases h with ⟨_, _, rfl, hover | ⟨n, file, hn, _⟩⟩
    · exact hover
    · cases hn
  | case13 key change attempts rest n hmissing =>
    rcases hknows n rfl with ⟨current, hcurrent⟩
    cases hmissing.symm.trans hcurrent
  | case14 key change attempts rest n current hcurrent message happly =>
    rcases h with ⟨_, hchange, rfl, hover | ⟨m, file, hm, hfile, hheld⟩⟩
    · exact hover
    · -- What was listed for the request could have been settled.
      rcases hchange.apply_heldFor hheld with ⟨changed, hok⟩
      cases hm
      cases hcurrent.symm.trans hfile
      cases happly.symm.trans hok
  | case15 => exact ⟨h.left, h.right.left, h.right.right.left⟩
  | case16 key change attempts rest changed published hpublish =>
    rcases h with ⟨hkey, hchange, rfl⟩
    rcases hknows with ⟨seen, p, made, hp, hgeneration, happly, rfl⟩
    have hfree := (Folder.publishOnce_eq_some hpublish).left
    rw [NotBeaten, hfree] at hbeaten
    have hmade := hchange.not_held happly
    apply Settling.published hchain hkey ?_ (by lia) hbeaten hpublish
    exact hmade
  | case17 key change attempts rest changed hpublish hlast =>
    rcases exists_load_of_publishOnce_eq_none hpublish with ⟨taken, htaken⟩
    rw [NotBeaten, htaken] at hbeaten
    exact absurd hlast (Nat.not_le.mpr hbeaten)
  | case18 => exact h
  | _ => cases h

end Blackboard
end Hyperloom
