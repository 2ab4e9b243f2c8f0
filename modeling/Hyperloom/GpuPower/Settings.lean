import Hyperloom.Library.Machine
import Mathlib.Algebra.Order.Ring.Rat

/-!
# The GPU power settings of a session

A session sets the power cap and the perf level of its cards and puts them
back.  Each card's originals are written to a record before anything is set,
and the record is locked for the session's lifetime: a record whose lock is
free was left by a session that died, and the next session that takes the card
restores it first.  Every set and every write of a record is a step of its own.
-/

namespace Hyperloom
namespace GpuPower

open Library (Machine)

inductive PowerKey where
  | powerCapW
  | perfLevel
deriving DecidableEq

def powerKeys : List PowerKey := [.powerCapW, .perfLevel]

/-- A cap in watts, or a perf level as `normalize_perf_level` gives it. -/
inductive PowerValue where
  | cap (watts : Rat)
  | level (name : String)
deriving DecidableEq

def readingTolerance : Rat := 1 / 2

def PowerValue.readsAs : PowerValue -> PowerValue -> Bool
  | .cap got, .cap want => decide (|got - want| ≤ readingTolerance)
  | .level got, .level want => got = want
  | _, _ => false

/-- `DeclaredPowerSettings`, without settings that are empty. -/
structure Declared where
  powerCapW : Option Rat := none
  perfLevel : Option String := none
deriving DecidableEq

def Declared.get (declared : Declared) : PowerKey -> Option PowerValue
  | .powerCapW => declared.powerCapW.map .cap
  | .perfLevel => declared.perfLevel.map .level

structure Target where
  gpu : Nat
  key : PowerKey
  value : PowerValue
deriving DecidableEq

/-- A card's record: the originals of what its session changes, and all the
session declared. -/
structure PowerRecord where
  original : PowerKey -> Option PowerValue
  applied : PowerKey -> Option PowerValue

/-- How far a session is.  `clearing`, `restoring` and `cleared` recover what a
dead session left; `recording`, `applying`, `running`, `puttingBack` and
`closing` are the session's own. -/
inductive PowerPhase where
  | leased
  | clearing (stale : List Nat) (live : List Target)
  | restoring (todo all : List Target)
  | cleared (cards : List Nat) (allBack : Bool)
  | observing
  | recording (cards : List Nat) (truncated : Bool) (originals : List Target)
  | applying (todo originals : List Target)
  | running (originals : List Target)
  | puttingBack (todo originals : List Target)
  | closing (cards : List Nat)
deriving DecidableEq

/-- A live session, which holds the lock of each of its cards' records. -/
structure PowerSession where
  id : Nat
  gpus : List Nat
  declared : Declared
  phase : PowerPhase := .leased
deriving DecidableEq

def PowerSession.record (session : PowerSession) (originals : List Target)
    (gpu : Nat) : PowerRecord where
  original key := (originals.find? fun target =>
    target.gpu = gpu && target.key = key).map Target.value
  applied := session.declared.get

inductive Origin where
  | outside
  | applied (session : Nat)
  | restored
deriving DecidableEq

/-- What each card reads, the records on disk and the live sessions.  `native`
is the value a setting last had from outside of all sessions and `origin` says
where its value now is from. -/
structure PowerRun where
  value : Nat -> PowerKey -> PowerValue
  native : Nat -> PowerKey -> PowerValue
  origin : Nat -> PowerKey -> Origin := fun _ _ => .outside
  records : Nat -> Option PowerRecord := fun _ => none
  sessions : List PowerSession := []
  used : List Nat := []

namespace PowerRun

variable (s : PowerRun)

def put (gpu : Nat) (key : PowerKey) (value : PowerValue) (origin : Origin) : PowerRun :=
  { s with
    value := Function.update s.value gpu (Function.update (s.value gpu) key value)
    origin := Function.update s.origin gpu (Function.update (s.origin gpu) key origin) }

def restore (target : Target) (took : Bool) : PowerRun :=
  if took then s.put target.gpu target.key target.value .restored else s

def apply (session : PowerSession) (target : Target) (took : Bool) : PowerRun :=
  match session.declared.get target.key with
  | some want =>
    if took then s.put target.gpu target.key want (.applied session.id)
    else s
  | none => s

def setRecord (gpu : Nat) (record : Option PowerRecord) : PowerRun :=
  { s with records := Function.update s.records gpu record }

/-- `orphaned`: the session's cards with a record. -/
def orphaned (session : PowerSession) : List Nat :=
  session.gpus.filter fun gpu => (s.records gpu).isSome

def stillApplied (gpu : Nat) : List Target :=
  match s.records gpu with
  | none => []
  | some record =>
    powerKeys.filterMap fun key =>
      match record.applied key, record.original key with
      | some want, some original =>
        if (s.value gpu key).readsAs want then some ⟨gpu, key, original⟩
        else none
      | _, _ => none

variable (hidden : List (Nat × PowerKey))

/-- `_unread`: a recorded setting the reading does not show. -/
def unread (gpu : Nat) : Bool :=
  match s.records gpu with
  | none => false
  | some record =>
    powerKeys.any fun key =>
      (record.applied key).isSome && (record.original key).isSome && decide ((gpu, key) ∈ hidden)

def readsBack (target : Target) : Bool :=
  decide ((target.gpu, target.key) ∉ hidden) && (s.value target.gpu target.key).readsAs target.value

def isBack (targets : List Target) (gpu : Nat) : Bool :=
  targets.all fun target => target.gpu ≠ gpu || s.readsBack hidden target

def touched (session : PowerSession) : List Target :=
  session.gpus.flatMap fun gpu => powerKeys.filterMap fun key =>
    match session.declared.get key with
    | none => none
    | some want =>
      if (gpu, key) ∉ hidden ∧ (s.value gpu key).readsAs want then none
      else some ⟨gpu, key, s.value gpu key⟩

/-- `_originals` and `_refuse_unrestorable_levels` refuse these. -/
def refused (target : Target) : Bool :=
  decide ((target.gpu, target.key) ∈ hidden) ||
    decide (target.value ∈ [PowerValue.level "determinism", .level "manual"])

end PowerRun

/-- What the environment answers: a write is done, a reading hides some
settings, a set is taken or not, the sets are given up. -/
inductive PowerAnswer where
  | done
  | read (hidden : List (Nat × PowerKey))
  | set (target : Target) (took : Bool)
  | raised
deriving DecidableEq

namespace PowerRun

/-- One step of a session: the state after it and the session's next phase,
`none` when it is over. -/
def statement (s : PowerRun) (session : PowerSession) :
    PowerPhase -> PowerAnswer -> Option (PowerRun × Option PowerPhase)
  | .leased, .read hidden =>
    let orphans := s.orphaned session
    if orphans = [] then some (s, some .observing)
    else if orphans.any (s.unread hidden) then some (s, none)
    else some (s, some (.clearing (orphans.filter fun gpu => (s.stillApplied gpu).isEmpty)
      (orphans.flatMap s.stillApplied)))
  | .clearing (gpu :: stale) live, .done =>
    some (s.setRecord gpu none, some (.clearing stale live))
  | .clearing [] live, .done =>
    some (s, some (if live = [] then .observing else .restoring live live))
  | .restoring todo all, .set target took =>
    if target ∈ todo then
      some (s.restore target took, some (.restoring (todo.erase target) all))
    else none
  | .restoring [] all, .read hidden =>
    let cards := (all.map Target.gpu).dedup
    some (s, some (.cleared (cards.filter (s.isBack hidden all)) (cards.all (s.isBack hidden all))))
  | .cleared (gpu :: cards) allBack, .done =>
    some (s.setRecord gpu none, some (.cleared cards allBack))
  | .cleared [] allBack, .done =>
    some (s, if allBack then some .observing else none)
  | .observing, .read hidden =>
    let originals := s.touched hidden session
    if originals.any (refused hidden) then some (s, none)
    else some (s, some (.recording session.gpus false originals))
  | .recording (gpu :: cards) false originals, .done =>
    some (s.setRecord gpu none, some (.recording (gpu :: cards) true originals))
  | .recording (gpu :: cards) true originals, .done =>
    some (s.setRecord gpu (some (session.record originals gpu)),
      some (.recording cards false originals))
  | .recording [] _ originals, .done =>
    some (s, some (.applying originals originals))
  | .applying todo originals, .set target took =>
    if target ∈ todo then
      some (s.apply session target took, some (.applying (todo.erase target) originals))
    else none
  | .applying _ originals, .raised =>
    some (s, some (.puttingBack originals originals))
  | .applying [] originals, .done => some (s, some (.running originals))
  | .running originals, .done =>
    some (s, some (.puttingBack originals originals))
  | .puttingBack todo originals, .set target took =>
    if target ∈ todo then
      some (s.restore target took, some (.puttingBack (todo.erase target) originals))
    else none
  | .puttingBack [] originals, .read hidden =>
    some (s, some (.closing (session.gpus.filter (s.isBack hidden originals))))
  | .closing (gpu :: cards), .done =>
    some (s.setRecord gpu none, some (.closing cards))
  | .closing [], .done => some (s, none)
  | _, _ => none

end PowerRun

/-- A session takes its cards' locks, goes on, or dies (it is killed, or it
raises and drops its locks); someone outside sets a card. -/
inductive PowerOp where
  | start (id : Nat) (gpus : List Nat) (declared : Declared)
  | advance (session : PowerSession) (answer : PowerAnswer)
  | die (session : PowerSession)
  | outside (gpu : Nat) (key : PowerKey) (value : PowerValue)
deriving DecidableEq

def powerStep (s : PowerRun) : PowerOp -> Option PowerRun
  | .start id gpus declared =>
    if id ∉ s.used ∧ s.sessions.all fun other => gpus.all fun gpu => decide (gpu ∉ other.gpus) then
      some { s with sessions := ⟨id, gpus, declared, .leased⟩ :: s.sessions, used := id :: s.used }
    else none
  | .advance session answer =>
    if session ∈ s.sessions then
      (s.statement session session.phase answer).map fun next =>
        { next.1 with
          sessions := (next.2.map fun phase =>
            { session with phase := phase }).toList ++ s.sessions.erase session }
    else none
  | .die session =>
    if session ∈ s.sessions then
      some { s with sessions := s.sessions.erase session }
    else none
  | .outside gpu key value =>
    some { s.put gpu key value .outside with
      native := Function.update s.native gpu (Function.update (s.native gpu) key value) }

/-- A boot: the records of earlier ones count for nothing. -/
def powerMachine : Machine PowerRun PowerOp where
  init s := s = { value := s.value, native := s.value }
  step := powerStep

end GpuPower
end Hyperloom
