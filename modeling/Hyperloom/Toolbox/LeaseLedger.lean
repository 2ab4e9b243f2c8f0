import Hyperloom.Library.Machine
import Hyperloom.Blackboard.Board

/-!
# The record of the leases

A lease's card time counts against the session's budget and is read from the
blackboard's lease rows: a start when cards are granted, an end as cards go
back.  An end that could not be written leaves its lease open until the close
or the next start ends it; a start ends the leases an earlier process left
open at the last time the blackboard saw a toolbox.
-/

namespace Hyperloom
namespace Toolbox

open Library (Machine)
open Blackboard

inductive LeaseKind where
  | autonomous
  | dev
  | toolJob
deriving DecidableEq

inductive LeaseEndReason where
  | released
  | sessionClose
  | toolboxLost
deriving DecidableEq

def LeaseEndReason.value : LeaseEndReason -> String
  | .released => "released"
  | .sessionClose => "session_close"
  | .toolboxLost => "toolbox_lost"

structure LeaseStart where
  leaseId : String
  holder : String
  branchId : String
  kind : LeaseKind
  cards : Nat
  startedAt : Rat
  tool : String := ""
  gpuIds : List Nat := []
  sandboxId : String := ""
deriving DecidableEq

/-- Its cards: the local GPU ids, or a hosted lease's cards numbered from 0. -/
def LeaseStart.cardIds (start : LeaseStart) : List Nat :=
  if start.gpuIds.isEmpty then List.range start.cards else start.gpuIds

structure LeaseEnd where
  leaseId : String
  endedAt : Rat
  endReason : LeaseEndReason
  gpuIds : List Nat := []
deriving DecidableEq

inductive LeaseDetail where
  | start (start : LeaseStart)
  | finish (finish : LeaseEnd)
  | other
deriving DecidableEq

abbrev LeaseRows := List (Entry LeaseDetail)

/-!
## What the blackboard derives from the rows
-/

namespace LeaseRows

variable (rows : LeaseRows)

def replayed : LeaseRows := rows.insertionSort Entry.SortedBefore

/-- `lease_starts.setdefault`: the first start of an id stays. -/
def addStart (starts : List LeaseStart) (entry : Entry LeaseDetail) : List LeaseStart :=
  match entry.detail with
  | .start start =>
    if starts.any fun other => other.leaseId = start.leaseId then starts
    else starts ++ [start]
  | _ => starts

def leaseStarts : List LeaseStart := rows.replayed.foldl addStart []

def leaseEnds : List LeaseEnd :=
  rows.replayed.filterMap fun entry =>
    match entry.detail with
    | .finish finish => some finish
    | _ => none

/-- What one row makes of `toolbox_seen_at`. -/
def see (seen : Option Rat) (entry : Entry LeaseDetail) : Option Rat :=
  if entry.role = .toolbox then
    -- `seen or entry.at`: a time of 0 counts as none.
    some (max entry.time ((seen.filter fun time => time ≠ 0).getD entry.time))
  else seen

def toolboxSeenAt : Option Rat := rows.replayed.foldl see none

end LeaseRows

/-- The cards an end brings back: those it names, or with none every card. -/
def LeaseEnd.cards (finish : LeaseEnd) (start : LeaseStart) : List Nat :=
  if finish.gpuIds.isEmpty then start.cardIds else finish.gpuIds

structure CardHold where
  start : LeaseStart
  returned : Nat -> Option Rat := fun _ => none
  endReason : Option LeaseEndReason := none

namespace CardHold

variable (hold : CardHold)

def closed : Bool :=
  hold.start.cardIds.all fun card => (hold.returned card).isSome

def secondsOf (at_ : Rat) (card : Nat) : Rat :=
  max 0 (min ((hold.returned card).getD at_) at_ - hold.start.startedAt)

/-- `card_seconds`: each card from the grant to its return, a card still out up
to `at_`. -/
def cardSeconds (at_ : Rat) : Rat :=
  (hold.start.cardIds.map (hold.secondsOf at_)).sum

/-- `back.setdefault(card, ended_at)`, for a card of the lease. -/
def giveBack (endedAt : Rat) (card : Nat) : CardHold :=
  if card ∈ hold.start.cardIds then
    { hold with
      returned := Function.update hold.returned card (some ((hold.returned card).getD endedAt)) }
  else hold

/-- What `card_holds` makes of one end. -/
def apply (finish : LeaseEnd) : CardHold :=
  if finish.leaseId = hold.start.leaseId then
    let back := (finish.cards hold.start).foldl
      (fun hold card => hold.giveBack finish.endedAt card) hold
    if back.endReason.isNone && back.closed then
      { back with endReason := some finish.endReason }
    else back
  else hold

end CardHold

def cardHolds (rows : LeaseRows) : List CardHold :=
  rows.leaseStarts.map fun start =>
    rows.leaseEnds.foldl CardHold.apply { start := start }

/-!
## The ledger of one toolbox process
-/

/-- What the toolbox is doing; `recovering` has the leases found open and
`closing` the ids still to end. -/
inductive LedgerMode where
  | down
  | recovering (lost : List LeaseStart) (seen : Option Rat)
  | running
  | closing (still : List String) (at_ : Rat)
deriving DecidableEq

/-- The blackboard, the process's ledger (`_out`, `_unrecorded`, the ends being
written) and its grants waiting for their record.  `granted` are the leases of
the living process and `used` all ids ever given out.  `outUntil` is when a
card of a lease was really back in the pool or its toolbox closed or ended, and
`lastSeen` the last time the rows showed the toolbox when a lease's toolbox
ended. -/
structure LedgerRun where
  now : Rat
  rows : LeaseRows := []
  writer : String := ""
  mode : LedgerMode := .down
  out : String -> Option (List Nat) := fun _ => none
  unrecorded : List String := []
  writes : List LeaseEnd := []
  granting : List LeaseStart := []
  granted : List LeaseStart := []
  used : List String := []
  outUntil : String -> Nat -> Option Rat := fun _ _ => none
  lastSeen : String -> Option Rat := fun _ => none

namespace LedgerRun

variable (s : LedgerRun)

def append (kind : EntryKind) (branch summary : String) (detail : LeaseDetail) : LedgerRun :=
  let seq := (s.rows.filter fun entry => entry.writer = s.writer).length + 1
  { s with rows := s.rows ++
      [{ entryId := s.writer ++ ":" ++ toString seq
         seq := seq
         time := s.now
         writer := s.writer
         role := .toolbox
         actor := "toolbox"
         kind := kind
         branch := branch
         parent := ""
         summary := clipSummary summary
         detail := detail }] }

def commaSeparated (cards : List Nat) : String :=
  ",".intercalate (cards.map toString)

/-- The checks of `record_lease_start`, but for the lineage's branches. -/
def startAllowed (start : LeaseStart) : Bool :=
  (s.rows.leaseStarts.all fun other => other.leaseId ≠ start.leaseId) && decide (1 ≤ start.cards) &&
  (start.gpuIds.isEmpty || decide (start.gpuIds.dedup.length = start.cards)) &&
  decide ((start.kind = .toolJob) = (start.tool ≠ ""))

def appendStart (start : LeaseStart) : LedgerRun :=
  let held := if start.gpuIds.isEmpty then start.sandboxId
    else commaSeparated start.gpuIds
  s.append .leaseStart start.branchId
    ("lease " ++ start.leaseId ++ ": " ++ toString start.cards ++ " cards (" ++
      held ++ ") to " ++ start.holder ++ ", charged to " ++ start.branchId) (.start start)

/-- `record_lease_end`, where it does not raise first: the lease has started
and holds the cards named. -/
def appendEnd (finish : LeaseEnd) : Option LedgerRun :=
  match s.rows.leaseStarts.find? fun start =>
      start.leaseId = finish.leaseId with
  | none => none
  | some start =>
    if finish.gpuIds.all fun card => decide (card ∈ start.cardIds) then
      let cards := if finish.gpuIds.isEmpty then "every card still out"
        else commaSeparated finish.gpuIds
      some (s.append .leaseEnd start.branchId
        ("lease " ++ finish.leaseId ++ " gave back " ++ cards ++ ": " ++
          finish.endReason.value) (.finish finish))
    else none

/-- `_write`: a failure leaves the lease to the close or the next start. -/
def writeEnd (finish : LeaseEnd) (result : WriteResult) : LedgerRun :=
  match s.appendEnd finish, result with
  | some written, .ok => written
  | some written, .failed true =>
    { written with unrecorded := s.unrecorded ++ [finish.leaseId] }
  | _, _ => { s with unrecorded := s.unrecorded ++ [finish.leaseId] }

/-- The cards for which `back` holds are in the pool from now on. -/
def giveBack (back : String -> Nat -> Bool) : LedgerRun :=
  { s with outUntil := fun leaseId card =>
      match s.outUntil leaseId card with
      | some time => some time
      | none => if back leaseId card then some s.now else none }

/-- `returned`; `bound` says whether the toolbox's loop takes the write. -/
def returned (leaseId : String) (gpuIds : List Nat) (bound : Bool) : LedgerRun :=
  match s.out leaseId, s.mode with
  | some _, .closing _ _ => s
  | some cards, _ =>
    let left := cards.filter fun card =>
      !gpuIds.isEmpty && decide (card ∉ gpuIds)
    let finish : LeaseEnd := ⟨leaseId, s.now, .released, gpuIds⟩
    let still := if left.isEmpty then none else some left
    let t := { s with out := Function.update s.out leaseId still }
    if bound then { t with writes := t.writes ++ [finish] }
    else { t with unrecorded := t.unrecorded ++ [leaseId] }
  | none, _ => s

def grantedIds : List String := s.granted.map LeaseStart.leaseId

def outIds : List String :=
  s.grantedIds.filter fun leaseId => (s.out leaseId).isSome

def stopped : LedgerRun :=
  { now := s.now
    rows := s.rows
    used := s.used
    outUntil := (s.giveBack fun leaseId _ => leaseId ∈ s.grantedIds).outUntil
    lastSeen := fun leaseId =>
      match s.lastSeen leaseId with
      | some seen => some seen
      | none =>
        if leaseId ∈ s.grantedIds then s.rows.toolboxSeenAt else none }

end LedgerRun

/-- The steps of the toolbox process, of its leases, and of the clock.  `stop`
is a crash, or the end of a process that has closed. -/
inductive LedgerOp where
  | tick (now : Rat)
  | foreignRow (entry : Entry LeaseDetail)
  | start (writer : String)
  | recoverWrite (result : WriteResult)
  | toolboxRow (summary : String)
  | grant (start : LeaseStart)
  | recordStart (start : LeaseStart) (result : WriteResult)
  | returned (start : LeaseStart) (gpuIds : List Nat) (bound : Bool)
  | writeEnd (finish : LeaseEnd) (result : WriteResult)
  | close
  | closeWrite (result : WriteResult)
  | stop
deriving DecidableEq

/-- `recover`'s end of a lease found open. -/
def lostEnd (start : LeaseStart) (seen : Option Rat) : LeaseEnd where
  leaseId := start.leaseId
  endedAt := match seen with
    | none => start.startedAt
    | some seen => max seen start.startedAt
  endReason := .toolboxLost

def ledgerStep (s : LedgerRun) : LedgerOp -> Option LedgerRun
  | .tick now => if s.now ≤ now then some { s with now := now } else none
  | .foreignRow entry =>
    if entry.role ≠ .toolbox ∧ entry.detail = .other then
      some { s with rows := s.rows ++ [entry] }
    else none
  | .start writer =>
    if s.mode = .down then
      let lost := ((cardHolds s.rows).filter fun hold => !hold.closed).map CardHold.start
      some { s with writer := writer, mode := .recovering lost s.rows.toolboxSeenAt }
    else none
  | .recoverWrite result =>
    match s.mode with
    | .recovering (start :: rest) seen =>
      some { s.writeEnd (lostEnd start seen) result with mode := .recovering rest seen }
    | .recovering [] _ => some { s with mode := .running }
    | _ => none
  | .toolboxRow summary =>
    match s.mode with
    | .running => some (s.append .toolResult "" summary .other)
    | .closing _ _ => some (s.append .toolResult "" summary .other)
    | _ => none
  | .grant start =>
    -- The clock is read at the grant, or a hosted lease's at its request.
    if s.mode = .running ∧ start.startedAt ≤ s.now ∧ start.leaseId ∉ s.used then
      some { s with
        granting := s.granting ++ [start]
        granted := s.granted ++ [start]
        used := s.used ++ [start.leaseId] }
    else none
  | .recordStart start result =>
    if start ∈ s.granting then
      let t := { s with granting := s.granting.erase start }
      -- A lease that is not recorded is refused and its cards go back.
      let refused := t.giveBack fun leaseId _ => leaseId = start.leaseId
      match s.startAllowed start, result with
      | true, .ok =>
        some { t.appendStart start with
          out := Function.update s.out start.leaseId (some start.cardIds) }
      | true, .failed true => some (refused.appendStart start)
      | _, _ => some refused
    else none
  | .returned start gpuIds bound =>
    if start ∈ s.granted then
      some ((s.giveBack fun leaseId card =>
        leaseId = start.leaseId && (gpuIds.isEmpty || card ∈ gpuIds)).returned
          start.leaseId gpuIds bound)
    else none
  | .writeEnd finish result =>
    if finish ∈ s.writes then
      some ({ s with writes := s.writes.erase finish }.writeEnd finish result)
    else none
  | .close =>
    if s.mode = .running ∧ s.writes = [] then
      let still := (s.outIds ++ s.unrecorded).dedup
      some { s.giveBack (fun leaseId _ => leaseId ∈ still) with
        mode := .closing still s.now
        out := fun _ => none
        unrecorded := [] }
    else none
  | .closeWrite result =>
    match s.mode with
    | .closing (leaseId :: rest) at_ =>
      some { s.writeEnd ⟨leaseId, at_, .sessionClose, []⟩ result with
        mode := .closing rest at_ }
    | _ => none
  | .stop =>
    if s.mode = .down then none else some s.stopped

def ledgerMachine : Machine LedgerRun LedgerOp where
  init s := s = { now := s.now }
  step := ledgerStep

end Toolbox
end Hyperloom
