import Hyperloom.Library.Machine
import Hyperloom.Library.Table

/-!
# Leases of cards

An autonomous branch or a tool job takes cards out of the pool the tests take
theirs from.  The cards are promised from the moment a request is checked.  A
released lease's cards are held out until nothing is listed on them, and given
back one reading after the other by a thread of their own.  The cards of a
test whose sandbox could not be reaped are lost for good.
-/

namespace Hyperloom
namespace Toolbox

open Library (Machine Table)

/-- The cards a pool owns; its constructor refuses duplicates. -/
structure CardPool where
  cards : List Nat
  nodup : cards.Nodup

structure Lease where
  leaseId : String
  holder : String
  gpuIds : List Nat
deriving DecidableEq

structure CardPromise where
  holder : String
  cards : Nat
deriving DecidableEq

def Lease.promise (lease : Lease) : CardPromise := ⟨lease.holder, lease.gpuIds.length⟩

structure CardSandbox where
  sandboxId : String
  gpuIds : List Nat
deriving DecidableEq

/-- The pool's free cards, the provider's sandboxes and lost cards, and the
leases: what is promised and granted, the cards held out, the calls of `lease`
that wait for cards or for the record of their grant, and the cards the
threads of released leases have still to give back.  `refused` says that the
pool refused to take a card back; `taken` and `returned` are the cards leases
took from the pool and put back. -/
structure Cards where
  free : List Nat
  sandboxes : Table CardSandbox CardSandbox.sandboxId := Table.empty
  quarantined : List Nat := []
  promised : Table CardPromise CardPromise.holder := Table.empty
  granted : Table Lease Lease.leaseId := Table.empty
  heldOut : List Nat := []
  closed : Bool := false
  waiting : List CardPromise := []
  recording : List Lease := []
  returning : List (List Nat) := []
  refused : Bool := false
  taken : List Nat := []
  returned : List Nat := []

/-- Why a lease is refused before anything is promised. -/
inductive LeaseRefusal where
  | leaseExists (holder : String)
  | fewerThanOne (cards : Nat)
  | leavesNoMeasurement (cards measuring cardsPerTest : Nat)
deriving DecidableEq

def refuseUnfitCards (cards measuring cardsPerTest : Nat) : Except LeaseRefusal Unit :=
  if cards < 1 then .error (.fewerThanOne cards)
  else if measuring < cards + cardsPerTest then
    .error (.leavesNoMeasurement cards measuring cardsPerTest)
  else .ok ()

/-- `GpuPool.release`: the free cards, and whether every card was one the pool
had given out. -/
def CardPool.release (pool : CardPool) : List Nat -> List Nat -> List Nat × Bool
  | free, [] => (free, true)
  | free, card :: rest =>
    if card ∈ pool.cards ∧ card ∉ free then
      pool.release (free ++ [card]) rest
    else (free, false)

/-- `set.update`, for cards without duplicates. -/
def addCards (held cards : List Nat) : List Nat := held ++ cards.filter fun card => card ∉ held

def removeCards (held cards : List Nat) : List Nat := held.filter fun card => card ∉ cards

namespace Cards

variable (pool : CardPool) (s : Cards)

def measurementCards : Nat :=
  let usable := pool.cards.length - s.quarantined.length
  let leased := s.promised.total CardPromise.cards + s.heldOut.length
  usable - min leased usable

def promise (cardsPerTest : Nat) (s : Cards) (holder : String) (cards : Nat) :
    Except LeaseRefusal Cards := do
  match s.promised.insertNew ⟨holder, cards⟩ with
  | none => .error (.leaseExists holder)
  | some promised =>
    refuseUnfitCards cards (s.measurementCards pool) cardsPerTest
    .ok { s with promised := promised }

def giveToPool (cards : List Nat) : Cards :=
  let (free, accepted) := pool.release s.free cards
  { s with free := free, refused := s.refused || !accepted, returned := s.returned ++ cards }

/-- `_forget`; `del self._promised[holder]` raises `KeyError`, and nothing goes
back, when the holder has no promise. -/
def forget (holder : String) (gpuIds : List Nat) : Cards :=
  match s.promised.find? holder with
  | none => s
  | some _ =>
    { s with promised := s.promised.deleteKey holder }.giveToPool pool gpuIds

/-- `release` up to the first reading of what is listed on the cards. -/
def release (leaseId : String) : Cards :=
  match s.granted.find? leaseId with
  | none => s
  | some lease =>
    { s with
      granted := s.granted.deleteKey leaseId
      promised := s.promised.deleteKey lease.holder
      heldOut := addCards s.heldOut lease.gpuIds
      returning := s.returning ++ [lease.gpuIds] }

def close : Cards :=
  (s.granted.rows.map Lease.leaseId).foldl release { s with closed := true }

end Cards

/-- Which free cards a take gets is the pool's choice by what holds them. -/
inductive CardsOp where
  | lease (holder : String) (cards : Nat)
  | take (promise : CardPromise) (leaseId : String) (gpuIds : List Nat)
  | takeFails (promise : CardPromise) (gpuIds : List Nat)
  | giveUp (promise : CardPromise)
  | recorded (lease : Lease)
  | recordFails (lease : Lease)
  | release (leaseId : String)
  | close
  | giveBack (thread : Nat) (freed : List Nat)
  | testTake (sandboxId : String) (gpuIds : List Nat)
  | testEnd (sandboxId : String) (reaped : Bool)
deriving DecidableEq

def Cards.offers (s : Cards) (gpuIds : List Nat) : Bool :=
  decide gpuIds.Nodup && gpuIds.all fun card => decide (card ∈ s.free)

section

variable (pool : CardPool) (cardsPerTest : Nat)

/-- One step between two awaits of the calls, or one locked section of a
thread. -/
def cardsStep (s : Cards) : CardsOp -> Option Cards
  | .lease holder cards =>
    -- A closed toolbox gives the promise up in the same step.
    match s.promise pool cardsPerTest holder cards with
    | .error _ => some s
    | .ok promised =>
      if s.closed then some s
      else some { promised with waiting := s.waiting ++ [⟨holder, cards⟩] }
  | .take promise leaseId gpuIds =>
    if promise ∈ s.waiting && !s.closed && s.offers gpuIds &&
        decide (gpuIds.length = promise.cards) &&
        s.recording.all fun lease => decide (lease.leaseId ≠ leaseId) then
      let lease : Lease := ⟨leaseId, promise.holder, gpuIds⟩
      (s.granted.insertNew lease).map fun granted =>
        { s with
          free := s.free.diff gpuIds
          granted := granted
          waiting := s.waiting.erase promise
          recording := s.recording ++ [lease]
          taken := s.taken ++ gpuIds }
    else none
  | .takeFails promise gpuIds =>
    if promise ∈ s.waiting && s.offers gpuIds then
      some ({ s with
        free := s.free.diff gpuIds
        waiting := s.waiting.erase promise
        taken := s.taken ++ gpuIds }.forget pool promise.holder gpuIds)
    else none
  | .giveUp promise =>
    if promise ∈ s.waiting then
      some ({ s with waiting := s.waiting.erase promise }.forget pool promise.holder [])
    else none
  | .recorded lease =>
    if lease ∈ s.recording then
      some { s with recording := s.recording.erase lease }
    else none
  | .recordFails lease =>
    if lease ∈ s.recording then
      some ({ s with
        granted := s.granted.deleteKey lease.leaseId
        recording := s.recording.erase lease }.forget pool lease.holder lease.gpuIds)
    else none
  | .release leaseId =>
    -- Nobody has the id of a lease that `lease` has not returned.
    if s.recording.all fun lease => decide (lease.leaseId ≠ leaseId) then
      some (s.release leaseId)
    else none
  | .close => some s.close
  | .giveBack thread freed =>
    match s.returning[thread]? with
    | none => none
    | some cards =>
      if freed.Nodup ∧ freed ⊆ cards then
        some ({ s with
          heldOut := removeCards s.heldOut freed
          returning := s.returning.set thread (removeCards cards freed) }.giveToPool pool freed)
      else none
  | .testTake sandboxId gpuIds =>
    if s.offers gpuIds then
      (s.sandboxes.insertNew ⟨sandboxId, gpuIds⟩).map fun sandboxes =>
        { s with free := s.free.diff gpuIds, sandboxes := sandboxes }
    else none
  | .testEnd sandboxId reaped =>
    match s.sandboxes.find? sandboxId with
    | none => none
    | some sandbox =>
      let ended := { s with sandboxes := s.sandboxes.deleteKey sandboxId }
      if reaped then
        let (free, accepted) := pool.release s.free sandbox.gpuIds
        some { ended with free := free, refused := s.refused || !accepted }
      else
        some { ended with quarantined := addCards s.quarantined sandbox.gpuIds }

/-- A toolbox starts with the cards an earlier run lost in quarantine and all
others free. -/
def cardsMachine : Machine Cards CardsOp where
  init s := (s.free ++ s.quarantined).Perm pool.cards ∧
    s = { free := s.free, quarantined := s.quarantined }
  step := cardsStep pool cardsPerTest

end

namespace Cards

def leased (s : Cards) (card : Nat) : Nat :=
  s.granted.total (fun lease => lease.gpuIds.count card) + s.heldOut.count card

/-- How often a card is in the free pool, in running tests, in granted leases,
among the cards held out and among the cards lost. -/
def places (s : Cards) (card : Nat) : Nat := s.free.count card +
  s.sandboxes.total (fun sandbox => sandbox.gpuIds.count card) +
  s.leased card + s.quarantined.count card

end Cards

end Toolbox
end Hyperloom
