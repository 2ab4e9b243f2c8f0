import Hyperloom.Library.Machine
import Hyperloom.Bus.ResourceLock

/-!
# The bring-up round store

`RoundStore` opens, renews, hands off and settles bring-up rounds.  Every call
is one transaction over three tables: the rounds, the lane row an open round
holds, and the outbox that records each attempt.  Callers pass the round as
they last read it, so any call may carry a stale holder or fence.
-/

namespace Hyperloom
namespace State

open Library Storage Bus

/-!
## Rows
-/

inductive RoundOutcome where
  | booted
  | failed
  | abandoned
  | advanced
  | expiredReaped
deriving DecidableEq

namespace RoundOutcome

def name : RoundOutcome -> String
  | booted => "booted"
  | failed => "failed"
  | abandoned => "abandoned"
  | advanced => "advanced"
  | expiredReaped => "expired_reaped"

def byName : List RoundOutcome := [abandoned, advanced, booted, expiredReaped, failed]

def ofName? (text : String) : Option RoundOutcome :=
  byName.find? (fun outcome => outcome.name = text)

end RoundOutcome

/-- The columns `state`, `outcome` and `settled_unix` of a round: an open round
has neither an outcome nor a settlement time. -/
inductive RoundStatus where
  | «open»
  | settled (outcome : RoundOutcome) (settledUnix : Unix)
deriving DecidableEq

structure Round where
  roundId : String
  status : RoundStatus
  holderTaskId : String
  fence : Int
  openedUnix : Unix
  renewedUnix : Unix
  expiresUnix : Unix
deriving DecidableEq

abbrev Rounds := Table Round Round.roundId

inductive RoundOp where
  | «open»
  | renew
  | handoff
  | settle
deriving DecidableEq

inductive AttemptResult where
  | applied
  | rejected
  | duplicate
deriving DecidableEq

inductive RejectReason where
  | unknownRound
  | notOwner
  | staleFence
  | notOpen
  | excluded
  | alreadyExists
  | alreadySettled
deriving DecidableEq

/-- A row of `round_events`; `event_id` is its position. -/
structure RoundEvent where
  roundId : String
  requestId : String
  op : RoundOp
  result : AttemptResult
  outcome : Option RoundOutcome
  fence : Int
  actorTaskId : String
  reason : Option RejectReason
  evidence : Evidence
  recordedUnix : Unix

structure RoundDb where
  rounds : Rounds
  leases : Leases
  outbox : List RoundEvent

structure RoundRequest where
  requestId : String
  nowUnix : Unix
  evidence : Evidence := []

/-- `RoundResult`: whether the store now reflects what was asked, and why not. -/
structure RoundResult where
  ok : Bool
  reason : Option RejectReason := none
deriving DecidableEq

/-!
## Attempts
-/

/-- `_Attempt`: one request as the outbox records it. -/
structure Attempt where
  roundId : String
  requestId : String
  op : RoundOp
  actorTaskId : String
  fence : Int
  outcome : Option RoundOutcome
  evidence : Evidence
  nowUnix : Unix

namespace Attempt

variable (attempt : Attempt)

def event (result : AttemptResult) (fence : Int)
    (actorTaskId : String) (reason : Option RejectReason) : RoundEvent where
  roundId := attempt.roundId
  requestId := attempt.requestId
  op := attempt.op
  result := result
  outcome := attempt.outcome
  fence := fence
  actorTaskId := actorTaskId
  reason := reason
  evidence := attempt.evidence
  recordedUnix := attempt.nowUnix

/-- `applied`: the event carries the fence and holder the round was left at. -/
def appliedEvent (after : Round) (duplicate : Bool) : RoundEvent :=
  attempt.event (if duplicate then .duplicate else .applied) after.fence after.holderTaskId none

/-- `reject`: the event carries what the attempt presented. -/
def rejectEvent (reason : RejectReason) : RoundEvent :=
  attempt.event .rejected attempt.fence attempt.actorTaskId (some reason)

def reject (db : RoundDb) (reason : RejectReason) : RoundResult × RoundDb :=
  ({ ok := false, reason := some reason },
    { db with outbox := db.outbox ++ [attempt.rejectEvent reason] })

end Attempt

/-- `_place_lane`: the lane row of an open round, gone once it is settled. -/
def placeLane (leases : Leases) (after : Round) : Leases :=
  match after.status with
  | .open =>
    holdRoundLane leases after.roundId after.holderTaskId after.expiresUnix after.renewedUnix
  | .settled _ _ => dropRoundLane leases after.roundId

/-!
## Opening a round
-/

/-- The callback `open` runs in its transaction: not given, done, or raising,
which rolls the transaction back. -/
inductive Join where
  | absent
  | done
  | raises
deriving DecidableEq

/-- What a round call may raise: the callback's own exception, or a
`ValueError`. -/
inductive RoundError where
  | joinRaised
  | unknownOutcome (outcome : String)
deriving DecidableEq

def openedRound (roundId : String) (request : RoundRequest)
    (holderTaskId : String) (leaseSec : Rat) : Round where
  roundId := roundId
  status := .open
  holderTaskId := holderTaskId
  fence := 1
  openedUnix := request.nowUnix
  renewedUnix := request.nowUnix
  expiresUnix := request.nowUnix + leaseSec

def openAttempt (roundId : String) (request : RoundRequest) (holderTaskId : String) : Attempt where
  roundId := roundId
  requestId := request.requestId
  op := .open
  actorTaskId := holderTaskId
  fence := 0
  outcome := none
  evidence := request.evidence
  nowUnix := request.nowUnix

def excluded (rounds : Rounds) : Bool := rounds.rows.any (fun round => round.status = .open)

def openRound (db : RoundDb) (roundId : String) (request : RoundRequest)
    (holderTaskId : String) (leaseSec : Rat) (join : Join) :
    Except RoundError (RoundResult × RoundDb) :=
  let attempt := openAttempt roundId request holderTaskId
  let opened := openedRound roundId request holderTaskId leaseSec
  if excluded db.rounds then
    .ok (attempt.reject db (if (db.rounds.find? roundId).isSome then .alreadyExists else .excluded))
  else
    match db.rounds.insertNew opened with
    | none => .ok (attempt.reject db .alreadyExists)
    | some rounds =>
      if join = .raises then .error .joinRaised
      else
        .ok ({ ok := true },
          { rounds := rounds
            leases := placeLane db.leases opened
            outbox := db.outbox ++ [attempt.appliedEvent opened false] })

/-!
## Compare and swap
-/

/-- The moves of an open round, with their arguments. -/
inductive RoundMove where
  | renew (leaseSec : Rat)
  | handoff (newHolderTaskId : String) (leaseSec : Rat)
  | settle (outcome : RoundOutcome)
deriving DecidableEq

namespace RoundMove

def op : RoundMove -> RoundOp
  | renew _ => .renew
  | handoff _ _ => .handoff
  | settle _ => .settle

def outcome : RoundMove -> Option RoundOutcome
  | settle outcome => some outcome
  | _ => none

def advance (move : RoundMove) (nowUnix : Unix) (current : Round) : Round :=
  match move with
  | renew leaseSec =>
    { current with renewedUnix := nowUnix, expiresUnix := nowUnix + leaseSec }
  | handoff newHolderTaskId leaseSec =>
    { current with
      holderTaskId := newHolderTaskId
      fence := current.fence + 1
      renewedUnix := nowUnix
      expiresUnix := nowUnix + leaseSec }
  | settle outcome =>
    { current with status := .settled outcome nowUnix }

@[simp] theorem advance_roundId (move : RoundMove) (nowUnix : Unix)
    (current : Round) : (move.advance nowUnix current).roundId = current.roundId := by
  cases move <;> rfl

end RoundMove

variable (current held : Round)

/-- `_cas_reason`: why `held` no longer names the current holder and fence. -/
def casReason : Option RejectReason :=
  if current.status ≠ .open then some .notOpen
  else if current.holderTaskId ≠ held.holderTaskId then some .notOwner
  else if current.fence ≠ held.fence then some .staleFence
  else none

/-- The `UPDATE` of `_swap`, which leaves `round_id` and `opened_unix`. -/
def updateRound (rounds : Rounds) (after : Round) : Rounds :=
  rounds.updateKey after.roundId (fun old =>
      { after with roundId := old.roundId, openedUnix := old.openedUnix }) (fun _ => rfl)

def swapAttempt (held : Round) (move : RoundMove) (request : RoundRequest) : Attempt where
  roundId := held.roundId
  requestId := request.requestId
  op := move.op
  actorTaskId := held.holderTaskId
  fence := held.fence
  outcome := move.outcome
  evidence := request.evidence
  nowUnix := request.nowUnix

/-- The replay check of `_swap`: a settle of a settled round is a duplicate
when outcome, holder and fence are the ones it was settled with. -/
def settleReplay (move : RoundMove) : Option (Option RejectReason) :=
  match move, current.status with
  | .settle outcome, .settled recorded _ =>
    if recorded = outcome ∧ current.holderTaskId = held.holderTaskId ∧
        current.fence = held.fence then
      some none
    else some (some .alreadySettled)
  | _, _ => none

variable (db : RoundDb) (held : Round)

/-- `_swap`: replace the round while `held` still names its holder and fence. -/
def swap (move : RoundMove) (request : RoundRequest) : RoundResult × RoundDb :=
  let attempt := swapAttempt held move request
  match db.rounds.find? held.roundId with
  | none => attempt.reject db .unknownRound
  | some current =>
    match settleReplay current held move with
    | some none =>
      ({ ok := true }, { db with outbox := db.outbox ++ [attempt.appliedEvent current true] })
    | some (some reason) => attempt.reject db reason
    | none =>
      match casReason current held with
      | some reason => attempt.reject db reason
      | none =>
        let after := move.advance request.nowUnix current
        ({ ok := true },
          { rounds := updateRound db.rounds after
            leases := placeLane db.leases after
            outbox := db.outbox ++ [attempt.appliedEvent after false] })

variable (request : RoundRequest)

def renew (leaseSec : Rat) : RoundResult × RoundDb :=
  swap db held (.renew leaseSec) request

def handoff (newHolderTaskId : String) (leaseSec : Rat) : RoundResult × RoundDb :=
  swap db held (.handoff newHolderTaskId leaseSec) request

/-- `RoundStore.settle`; an outcome outside `OUTCOMES` raises before the
transaction. -/
def settle (outcome : String) : Except RoundError (RoundResult × RoundDb) :=
  match RoundOutcome.ofName? outcome with
  | none => .error (.unknownOutcome outcome)
  | some outcome => .ok (swap db held (.settle outcome) request)

/-!
## What a call does

One lemma per table, then the two cases of a swap and of an open: applied, or
refused with nothing but an outbox row.
-/

variable {current : Round}

theorem mem_updateRound {rounds : Rounds} {after round : Round}
    (hcurrent : current ∈ rounds) (hid : after.roundId = current.roundId)
    (hopened : after.openedUnix = current.openedUnix) :
    round ∈ updateRound rounds after <->
      round = after ∨ (round ∈ rounds ∧ round.roundId ≠ current.roundId) := by
  have hself : { after with
      roundId := current.roundId, openedUnix := current.openedUnix } = after := by
    rw [← hid, ← hopened]
  refine (Table.mem_updateKey hcurrent hid.symm).trans ?_
  rw [hself, hid]

theorem RoundMove.advance_openedUnix (move : RoundMove) (nowUnix : Unix) (current : Round) :
    (move.advance nowUnix current).openedUnix = current.openedUnix := by
  cases move <;> rfl

/-- `held` names the holder and fence of the open round `current`. -/
structure Names (held current : Round) : Prop where
  roundId : current.roundId = held.roundId
  isOpen : current.status = .open
  holder : current.holderTaskId = held.holderTaskId
  fence : current.fence = held.fence

variable {held : Round}

theorem casReason_eq_none (h : casReason current held = none) :
    current.status = .open ∧ current.holderTaskId = held.holderTaskId ∧
      current.fence = held.fence := by
  revert h
  fun_cases casReason current held with (intro h; cases h)
  | case4 hopen hholder hfence => exact ⟨not_not.mp hopen, not_not.mp hholder, not_not.mp hfence⟩

def swapped (held current : Round) (move : RoundMove) (request : RoundRequest) : RoundDb :=
  let after := move.advance request.nowUnix current
  { rounds := updateRound db.rounds after
    leases := placeLane db.leases after
    outbox := db.outbox ++ [(swapAttempt held move request).appliedEvent after false] }

def recorded (event : RoundEvent) : RoundDb :=
  { db with outbox := db.outbox ++ [event] }

theorem swap_cases (held : Round) (move : RoundMove) (request : RoundRequest) :
    (exists current, current ∈ db.rounds ∧ Names held current ∧
      (swap db held move request).snd = swapped db held current move request) ∨
    (exists event, event.result ≠ .applied ∧
      (swap db held move request).snd = recorded db event) := by
  fun_cases swap db held move request with
  | case5 _ current hfound _ hcas =>
    have hcurrent := Table.find?_eq_some.mp hfound
    rcases casReason_eq_none hcas with ⟨hopen, hholder, hfence⟩
    exact Or.inl ⟨current, hcurrent.left, ⟨hcurrent.right, hopen, hholder, hfence⟩, rfl⟩
  | _ =>
    refine Or.inr ⟨_, ?_, rfl⟩
    simp [Attempt.rejectEvent, Attempt.appliedEvent, Attempt.event]

theorem casReason_of_names (h : Names held current) : casReason current held = none := by
  unfold casReason
  rw [if_neg (not_not.mpr h.isOpen), if_neg (not_not.mpr h.holder), if_neg (not_not.mpr h.fence)]

theorem settleReplay_of_open {move : RoundMove} (h : current.status = .open) :
    settleReplay current held move = none := by
  unfold settleReplay
  rw [h]
  cases move <;> rfl

theorem swap_of_names {db : RoundDb} {move : RoundMove} {request : RoundRequest}
    (hcurrent : current ∈ db.rounds) (hnames : Names held current) :
    (swap db held move request).snd = swapped db held current move request := by
  have hfound : db.rounds.find? held.roundId = some current :=
    Table.find?_eq_some.mpr ⟨hcurrent, hnames.roundId⟩
  simp only [swap, hfound, settleReplay_of_open hnames.isOpen, casReason_of_names hnames, swapped]

theorem not_excluded {rounds : Rounds} (h : ¬ excluded rounds = true)
    {round : Round} (hround : round ∈ rounds) : round.status ≠ .open := by
  intro hopen
  apply h
  rw [excluded, List.any_eq_true]
  exact ⟨round, hround, by simpa using hopen⟩

theorem openRound_cases {db : RoundDb} {roundId : String}
    {request : RoundRequest} {holderTaskId : String} {leaseSec : Rat}
    {join : Join} {answer : RoundResult} {after : RoundDb}
    (h : openRound db roundId request holderTaskId leaseSec join = .ok (answer, after)) :
    (exists rounds, (forall round, round ∈ db.rounds -> round.status ≠ .open) ∧
      db.rounds.insertNew (openedRound roundId request holderTaskId leaseSec) = some rounds ∧
      after =
        { rounds := rounds
          leases := placeLane db.leases (openedRound roundId request holderTaskId leaseSec)
          outbox := db.outbox ++ [(openAttempt roundId request holderTaskId).appliedEvent
              (openedRound roundId request holderTaskId leaseSec) false] }) ∨
    (exists event, event.result ≠ .applied ∧ after = recorded db event) := by
  revert h
  fun_cases openRound db roundId request holderTaskId leaseSec join with (intro h; cases h)
  | case4 _ _ hfree rounds hinsert =>
    exact Or.inl ⟨rounds, fun round hround => not_excluded hfree hround, hinsert, rfl⟩
  | _ =>
    refine Or.inr ⟨_, ?_, rfl⟩
    simp [Attempt.rejectEvent, Attempt.event]

end State
end Hyperloom
