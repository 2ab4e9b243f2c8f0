import Hyperloom.State.RoundStore

/-!
# The round mutex and its fence

The calls of the round store as one machine.  Any caller may issue any call
with any snapshot, so a run of the machine is an arbitrary interleaving of the
transactions of unboundedly many callers.
-/

namespace Hyperloom
namespace State

open Library Storage

inductive RoundCall where
  | openRound (roundId : String) (request : RoundRequest)
    (holderTaskId : String) (leaseSec : Rat) (join : Join)
  | renew (held : Round) (request : RoundRequest) (leaseSec : Rat)
  | handoff (held : Round) (request : RoundRequest) (newHolderTaskId : String) (leaseSec : Rat)
  | settle (held : Round) (request : RoundRequest) (outcome : String)

namespace RoundCall

def perform (db : RoundDb) : RoundCall -> Except RoundError (RoundResult × RoundDb)
  | openRound roundId request holderTaskId leaseSec join =>
    State.openRound db roundId request holderTaskId leaseSec join
  | renew held request leaseSec => .ok (State.renew db held request leaseSec)
  | handoff held request newHolderTaskId leaseSec =>
    .ok (State.handoff db held request newHolderTaskId leaseSec)
  | settle held request outcome => State.settle db held request outcome

def after (db : RoundDb) (call : RoundCall) : RoundDb :=
  match call.perform db with
  | .error _ => db
  | .ok (_, next) => next

/-- A renew, a handoff, or a settle with one of `OUTCOMES`, with the snapshot
it presents. -/
inductive Presents : RoundCall -> Round -> RoundMove -> RoundRequest -> Prop where
  | renew (held : Round) (request : RoundRequest) (leaseSec : Rat) :
    Presents (.renew held request leaseSec) held (.renew leaseSec) request
  | handoff (held : Round) (request : RoundRequest) (newHolderTaskId : String) (leaseSec : Rat) :
    Presents (.handoff held request newHolderTaskId leaseSec) held
      (.handoff newHolderTaskId leaseSec) request
  | settle {held : Round} {request : RoundRequest} {outcome : String}
    {known : RoundOutcome} : RoundOutcome.ofName? outcome = some known ->
    Presents (.settle held request outcome) held (.settle known) request

theorem after_of_presents {call : RoundCall} {held : Round} {move : RoundMove}
    {request : RoundRequest} (h : call.Presents held move request)
    (db : RoundDb) : call.after db = (swap db held move request).snd := by
  cases h with
  | settle hknown => simp only [after, perform, State.settle, hknown]
  | _ => rfl

theorem after_settle_of_unknown {outcome : String}
    (h : RoundOutcome.ofName? outcome = none) (db : RoundDb) (held : Round)
    (request : RoundRequest) : after db (.settle held request outcome) = db := by
  simp only [after, perform, State.settle, h]

end RoundCall

def roundMachine : Machine RoundDb RoundCall where
  init db := db.rounds = Table.empty ∧ db.outbox = []
  step db call := some (call.after db)

/-- What a call can do to the tables: open the first open round, swap the round
its snapshot names, leave an outbox row, or raise. -/
inductive Effect (db : RoundDb) : RoundCall -> RoundDb -> Prop where
  | opened {roundId holderTaskId : String} {request : RoundRequest}
    {leaseSec : Rat} {join : Join} {rounds : Rounds} :
    (forall round, round ∈ db.rounds -> round.status ≠ .open) ->
    db.rounds.insertNew (openedRound roundId request holderTaskId leaseSec) = some rounds ->
    Effect db (.openRound roundId request holderTaskId leaseSec join)
      { rounds := rounds
        leases := placeLane db.leases (openedRound roundId request holderTaskId leaseSec)
        outbox := db.outbox ++ [(openAttempt roundId request holderTaskId).appliedEvent
            (openedRound roundId request holderTaskId leaseSec) false] }
  | swapped {call : RoundCall} {held current : Round} {move : RoundMove}
    {request : RoundRequest} : call.Presents held move request ->
    current ∈ db.rounds -> Names held current ->
    Effect db call (State.swapped db held current move request)
  | recorded {call : RoundCall} {event : RoundEvent} :
    event.result ≠ .applied -> Effect db call (State.recorded db event)
  | raised {call : RoundCall} : Effect db call db

variable {call : RoundCall} {held : Round} {move : RoundMove} {request : RoundRequest}

theorem swap_effect (h : call.Presents held move request) (db : RoundDb) :
    Effect db call (call.after db) := by
  rw [RoundCall.after_of_presents h db]
  rcases swap_cases db held move request with
    ⟨current, hcurrent, hnames, hafter⟩ | ⟨event, hevent, hafter⟩
  · rw [hafter]
    exact Effect.swapped h hcurrent hnames
  · rw [hafter]
    exact Effect.recorded hevent

theorem call_effect (db : RoundDb) (call : RoundCall) : Effect db call (call.after db) := by
  cases call with
  | openRound roundId request holderTaskId leaseSec join =>
    unfold RoundCall.after
    split
    · exact Effect.raised
    · rename_i answer next hopen
      rcases openRound_cases hopen with ⟨rounds, hfree, hinsert, rfl⟩ | ⟨event, hevent, rfl⟩
      · exact Effect.opened hfree hinsert
      · exact Effect.recorded hevent
  | renew held request leaseSec =>
    exact swap_effect (RoundCall.Presents.renew held request leaseSec) db
  | handoff held request newHolderTaskId leaseSec =>
    exact swap_effect (RoundCall.Presents.handoff held request newHolderTaskId leaseSec) db
  | settle held request outcome =>
    cases hknown : RoundOutcome.ofName? outcome with
    | none =>
      rw [RoundCall.after_settle_of_unknown hknown]
      exact Effect.raised
    | some known => exact swap_effect (RoundCall.Presents.settle hknown) db

variable {db next : RoundDb}

theorem roundMachine_step (h : roundMachine.step db call = some next) : Effect db call next := by
  injection h with h
  rw [← h]
  exact call_effect db call

variable {current : Round}

theorem mem_swapped_rounds {round : Round} (hcurrent : current ∈ db.rounds) :
    round ∈ (swapped db held current move request).rounds <->
      round = move.advance request.nowUnix current ∨
        (round ∈ db.rounds ∧ round.roundId ≠ current.roundId) :=
  mem_updateRound hcurrent (RoundMove.advance_roundId move _ current)
    (RoundMove.advance_openedUnix move _ current)

/-!
## At most one open round
-/

def OneOpen (rounds : Rounds) : Prop :=
  forall round other, round ∈ rounds -> other ∈ rounds ->
    round.status = .open -> other.status = .open -> round = other

theorem oneOpen_step (hdb : OneOpen db.rounds) (h : Effect db call next) : OneOpen next.rounds := by
  cases h with
  | opened hfree hinsert =>
    intro round other hround hother hopen hopen'
    rcases (Table.mem_insertNew hinsert).mp hround with rfl | hold
    · rcases (Table.mem_insertNew hinsert).mp hother with rfl | hold'
      · rfl
      · exact absurd hopen' (hfree other hold')
    · exact absurd hopen (hfree round hold)
  | swapped _ hcurrent hnames =>
    intro round other hround hother hopen hopen'
    -- the swapped round was the open one, so no other row is open
    have honly : forall row, row ∈ db.rounds -> row.status = .open ->
        row.roundId ≠ _ -> False := fun row hrow hrowOpen hne =>
      hne (congrArg Round.roundId (hdb row _ hrow hcurrent hrowOpen hnames.isOpen))
    rcases (mem_swapped_rounds hcurrent).mp hround with rfl | ⟨hold, hne⟩
    · rcases (mem_swapped_rounds hcurrent).mp hother with rfl | ⟨hold', hne'⟩
      · rfl
      · exact absurd hne' (fun hne' => honly other hold' hopen' hne')
    · exact absurd hne (fun hne => honly round hold hopen hne)
  | _ => exact hdb

/-!
## Rounds evolve
-/

/-- Every round is still there with the same identity, its fence has not
decreased, and a settled round is as it was. -/
def Evolves (db next : RoundDb) : Prop :=
  forall round, round ∈ db.rounds ->
    exists round', round' ∈ next.rounds ∧ round'.roundId = round.roundId ∧
      round.fence ≤ round'.fence ∧ (round.status ≠ .open -> round' = round)

theorem Evolves.refl (db : RoundDb) : Evolves db db := by
  intro round hround
  exact ⟨round, hround, rfl, le_refl _, fun _ => rfl⟩

theorem Evolves.trans {first second third : RoundDb}
    (h : Evolves first second) (h' : Evolves second third) : Evolves first third := by
  intro round hround
  rcases h round hround with ⟨mid, hmid, hmidId, hmidFence, hmidSettled⟩
  rcases h' mid hmid with ⟨last, hlast, hlastId, hlastFence, hlastSettled⟩
  refine ⟨last, hlast, hlastId.trans hmidId, hmidFence.trans hlastFence, ?_⟩
  intro hsettled
  have hmidEq := hmidSettled hsettled
  rw [hmidEq] at hlastSettled
  exact hlastSettled hsettled

theorem RoundMove.fence_le_advance (move : RoundMove) (nowUnix : Unix) (current : Round) :
    current.fence ≤ (move.advance nowUnix current).fence := by
  cases move with
  | handoff => exact Int.le_add_one (le_refl _)
  | _ => exact le_refl _

theorem evolves_step (h : Effect db call next) : Evolves db next := by
  cases h with
  | opened hfree hinsert =>
    intro round hround
    exact ⟨round, (Table.mem_insertNew hinsert).mpr (Or.inr hround), rfl, le_refl _, fun _ => rfl⟩
  | swapped hpresents hcurrent hnames =>
    rename_i held current move request
    intro round hround
    by_cases hkey : round.roundId = current.roundId
    · have heq := Table.eq_of_key_eq hround hcurrent hkey
      rw [heq]
      refine ⟨move.advance request.nowUnix current,
        (mem_swapped_rounds hcurrent).mpr (Or.inl rfl), RoundMove.advance_roundId _ _ _,
        RoundMove.fence_le_advance _ _ _, ?_⟩
      intro hsettled
      exact absurd hnames.isOpen hsettled
    · exact ⟨round, (mem_swapped_rounds hcurrent).mpr (Or.inr ⟨hround, hkey⟩),
        rfl, le_refl _, fun _ => rfl⟩
  | _ => exact Evolves.refl db

variable {trace : List RoundCall}

theorem evolves_run (h : roundMachine.Run Machine.Always db trace next) : Evolves db next :=
  h.relates (I := fun _ => True) Evolves.refl
    (fun _ _ _ hab hbc => hab.trans hbc) (fun _ _ _ _ _ _ => trivial)
    (fun _ _ _ _ _ hstep => evolves_step (roundMachine_step hstep)) trivial

/-!
## The fence counts the handoffs

The outbox keeps one applied `handoff` row for every handoff of a round.
-/

def isHandoffOf (roundId : String) (event : RoundEvent) : Bool :=
  decide (event.op = .handoff) && decide (event.result = .applied) &&
    decide (event.roundId = roundId)

variable (outbox : List RoundEvent)

def handoffsApplied (roundId : String) : Nat :=
  outbox.countP (isHandoffOf roundId)

theorem handoffsApplied_append (event : RoundEvent) (roundId : String) :
    handoffsApplied (outbox ++ [event]) roundId = handoffsApplied outbox roundId +
        if isHandoffOf roundId event then 1 else 0 := by
  unfold handoffsApplied
  rw [List.countP_append, List.countP_singleton]

variable {event : RoundEvent}

theorem handoffsApplied_append_of_not {outbox : List RoundEvent}
    {roundId : String} (h : isHandoffOf roundId event = false) :
    handoffsApplied (outbox ++ [event]) roundId = handoffsApplied outbox roundId := by
  rw [handoffsApplied_append, h]
  rfl

/-- The fence of every round is one more than its handoffs, and a round that
was never opened has none. -/
structure FenceCounts (db : RoundDb) : Prop where
  counted : forall round, round ∈ db.rounds ->
    round.fence = 1 + handoffsApplied db.outbox round.roundId
  fresh : forall roundId, (forall round, round ∈ db.rounds -> round.roundId ≠ roundId) ->
      handoffsApplied db.outbox roundId = 0

theorem fenceCounts_opened {opened : Round} {rounds : Rounds} {leases : Leases}
    (hdb : FenceCounts db) (hfence : opened.fence = 1) (hop : event.op = .open)
    (hinsert : db.rounds.insertNew opened = some rounds) :
    FenceCounts { rounds := rounds, leases := leases, outbox := db.outbox ++ [event] } := by
  have hsame : forall roundId,
      handoffsApplied (db.outbox ++ [event]) roundId = handoffsApplied db.outbox roundId := by
    intro roundId
    apply handoffsApplied_append_of_not
    simp [isHandoffOf, hop]
  have hnew : forall round, round ∈ db.rounds -> round.roundId ≠ opened.roundId := by
    intro round hround hkey
    rw [Table.insertNew_eq_none.mpr ⟨round, hround, hkey⟩] at hinsert
    cases hinsert
  constructor
  · intro round hround
    rw [hsame]
    rcases (Table.mem_insertNew hinsert).mp hround with heq | hold
    · rw [heq, hdb.fresh opened.roundId hnew, hfence]
      rfl
    · exact hdb.counted round hold
  · intro roundId habsent
    rw [hsame]
    apply hdb.fresh
    intro round hround
    exact habsent round ((Table.mem_insertNew hinsert).mpr (Or.inr hround))

theorem RoundMove.advance_fence (move : RoundMove) (nowUnix : Unix) (current : Round) :
    (move.advance nowUnix current).fence = current.fence + if move.op = .handoff then 1 else 0 := by
  cases move with
  | handoff => rfl
  | _ => exact (Int.add_zero _).symm

theorem isHandoffOf_swapped {after : Round} (hnames : Names held current) (roundId : String) :
    isHandoffOf roundId ((swapAttempt held move request).appliedEvent after false) =
      (decide (move.op = .handoff) && decide (current.roundId = roundId)) := by
  simp [isHandoffOf, Attempt.appliedEvent, Attempt.event, swapAttempt, hnames.roundId]

theorem fenceCounts_swapped (hdb : FenceCounts db)
    (hcurrent : current ∈ db.rounds) (hnames : Names held current) :
    FenceCounts (swapped db held current move request) := by
  have hcount : forall roundId,
      handoffsApplied (swapped db held current move request).outbox roundId =
        handoffsApplied db.outbox roundId +
          if move.op = .handoff ∧ current.roundId = roundId then 1 else 0 := by
    intro roundId
    refine (handoffsApplied_append _ _ _).trans ?_
    rw [isHandoffOf_swapped hnames]
    simp
  constructor
  · intro round hround
    rw [hcount]
    rcases (mem_swapped_rounds hcurrent).mp hround with rfl | ⟨hold, hne⟩
    · rw [RoundMove.advance_fence, hdb.counted current hcurrent]
      by_cases hop : move.op = .handoff
      · simp [add_assoc]
      · simp [hop]
    · rw [if_neg (fun h => hne h.right.symm), hdb.counted round hold]
      rfl
  · intro roundId habsent
    have hcurrentNe : current.roundId ≠ roundId := by
      have hmem : move.advance request.nowUnix current ∈
          (swapped db held current move request).rounds :=
        (mem_swapped_rounds hcurrent).mpr (Or.inl rfl)
      have hne := habsent _ hmem
      rw [RoundMove.advance_roundId] at hne
      exact hne
    rw [hcount, if_neg (fun h => hcurrentNe h.right)]
    apply hdb.fresh
    intro round hround hkey
    have hne : round.roundId ≠ current.roundId := by
      rw [hkey]
      exact hcurrentNe.symm
    exact habsent round ((mem_swapped_rounds hcurrent).mpr (Or.inr ⟨hround, hne⟩)) hkey

theorem fenceCounts_recorded (hdb : FenceCounts db)
    (hevent : event.result ≠ .applied) : FenceCounts (recorded db event) := by
  have hsame : forall roundId,
      handoffsApplied (db.outbox ++ [event]) roundId = handoffsApplied db.outbox roundId := by
    intro roundId
    apply handoffsApplied_append_of_not
    simp [isHandoffOf, hevent]
  constructor
  · intro round hround
    show round.fence = 1 + handoffsApplied (db.outbox ++ [event]) round.roundId
    rw [hsame]
    exact hdb.counted round hround
  · intro roundId habsent
    show handoffsApplied (db.outbox ++ [event]) roundId = 0
    rw [hsame]
    exact hdb.fresh roundId habsent

theorem fenceCounts_step (hdb : FenceCounts db) (h : Effect db call next) : FenceCounts next := by
  cases h with
  | opened _ hinsert => exact fenceCounts_opened hdb rfl rfl hinsert
  | swapped _ hcurrent hnames => exact fenceCounts_swapped hdb hcurrent hnames
  | recorded hevent => exact fenceCounts_recorded hdb hevent
  | raised => exact hdb

theorem reachable_oneOpen_fenceCounts (h : roundMachine.Reachable db) :
    OneOpen db.rounds ∧ FenceCounts db := by
  refine h.invariant (I := fun db => OneOpen db.rounds ∧ FenceCounts db) ?_ ?_
  · intro start hstart
    have hnone : forall round, ¬ round ∈ start.rounds := by
      intro round hround
      rw [hstart.left] at hround
      exact Table.not_mem_empty round hround
    constructor
    · intro round other hround
      exact absurd hround (hnone round)
    · constructor
      · intro round hround
        exact absurd hround (hnone round)
      · intro roundId _
        rw [hstart.right]
        rfl
  · intro before call next hbefore _ hstep
    have heffect := roundMachine_step hstep
    exact ⟨oneOpen_step hbefore.left heffect, fenceCounts_step hbefore.right heffect⟩

/-!
## Stale snapshots
-/

theorem stale_swap {round : Round} (hround : round ∈ db.rounds)
    (hid : held.roundId = round.roundId) (hfence : held.fence < round.fence)
    (hrun : roundMachine.Run Machine.Always db trace next) (move : RoundMove)
    (request : RoundRequest) :
    exists event, event.result ≠ .applied ∧
      (swap next held move request).snd = recorded next event := by
  rcases evolves_run hrun round hround with ⟨later, hlater, hlaterId, hle, _⟩
  rcases swap_cases next held move request with ⟨current, hcurrent, hnames, _⟩ | hrefused
  · have hkey : current.roundId = later.roundId := hnames.roundId.trans (hid.trans hlaterId.symm)
    have heq := Table.eq_of_key_eq hcurrent hlater hkey
    have hcurrentFence := hnames.fence
    lia
  · exact hrefused

theorem after_presents_cases (h : call.Presents held move request) (db : RoundDb) :
    (exists current, current ∈ db.rounds ∧ Names held current ∧
      call.after db = swapped db held current move request) ∨
    ((call.after db).rounds = db.rounds ∧ (call.after db).leases = db.leases ∧
      exists event, (event.result = .rejected ∨ event.result = .duplicate) ∧
        (call.after db).outbox = db.outbox ++ [event]) := by
  rw [RoundCall.after_of_presents h db]
  rcases swap_cases db held move request with hswapped | ⟨event, hevent, hafter⟩
  · exact Or.inl hswapped
  · rw [hafter]
    refine Or.inr ⟨rfl, rfl, event, ?_, rfl⟩
    cases hresult : event.result with
    | applied => exact absurd hresult hevent
    | rejected => exact Or.inl rfl
    | duplicate => exact Or.inr rfl

/-- Once a handoff of the round is applied, a call that carries the fence it
was handed off with leaves rounds and leases as they are. -/
theorem stale_after_handoff {stale : Round} {newHolderTaskId : String}
    {leaseSec : Rat} {request' : RoundRequest} (hcurrent : current ∈ db.rounds)
    (hnames : Names held current) (hrun : roundMachine.Run Machine.Always
      (swapped db held current (.handoff newHolderTaskId leaseSec) request)
      trace next) (hid : stale.roundId = held.roundId) (hfence : stale.fence ≤ held.fence)
    (hcall : call.Presents stale move request') :
    (call.after next).rounds = next.rounds ∧ (call.after next).leases = next.leases := by
  let moved := RoundMove.advance (.handoff newHolderTaskId leaseSec) request.nowUnix current
  have hmoved : moved ∈ (swapped db held current
      (.handoff newHolderTaskId leaseSec) request).rounds :=
    (mem_swapped_rounds hcurrent).mpr (Or.inl rfl)
  have hmovedFence : moved.fence = current.fence + 1 := rfl
  have hmovedId : moved.roundId = current.roundId := rfl
  have hcurrentFence := hnames.fence
  rcases stale_swap hmoved (hid.trans (hnames.roundId.symm.trans hmovedId.symm))
    (by lia) hrun move request' with ⟨event, _, hafter⟩
  rw [RoundCall.after_of_presents hcall next, hafter]
  exact ⟨rfl, rfl⟩

/-- The round store is a mutex with fencing: one open round at most, fences
that count handoffs, settled rounds that stay, and stale snapshots that leave
nothing but an outbox row. -/
theorem round_mutex_fencing :
    (forall db, roundMachine.Reachable db -> OneOpen db.rounds ∧
      forall round, round ∈ db.rounds ->
        round.fence = 1 + handoffsApplied db.outbox round.roundId) ∧
    (forall db trace next, roundMachine.Run Machine.Always db trace next ->
      forall round, round ∈ db.rounds ->
        exists round', round' ∈ next.rounds ∧ round'.roundId = round.roundId ∧
          round.fence ≤ round'.fence ∧ (round.status ≠ .open -> round' = round)) ∧
    (forall db call held move request, RoundCall.Presents call held move request ->
      (exists current, current ∈ db.rounds ∧ Names held current ∧
        call.after db = swapped db held current move request) ∨
      ((call.after db).rounds = db.rounds ∧ (call.after db).leases = db.leases ∧
        exists event, (event.result = .rejected ∨ event.result = .duplicate) ∧
          (call.after db).outbox = db.outbox ++ [event])) ∧
    (forall db held request outcome, RoundOutcome.ofName? outcome = none ->
      RoundCall.after db (.settle held request outcome) = db) ∧
    (forall db held request newHolderTaskId leaseSec current trace next stale call move request',
      current ∈ db.rounds -> Names held current ->
      roundMachine.Run Machine.Always
        (RoundCall.after db (.handoff held request newHolderTaskId leaseSec)) trace next ->
      stale.roundId = held.roundId -> stale.fence ≤ held.fence ->
      RoundCall.Presents call stale move request' ->
        (call.after next).rounds = next.rounds ∧ (call.after next).leases = next.leases) := by
  refine ⟨?_, ?_, ?_, ?_, ?_⟩
  · intro db hdb
    have hinv := reachable_oneOpen_fenceCounts hdb
    exact ⟨hinv.left, hinv.right.counted⟩
  · intro db trace next hrun
    exact evolves_run hrun
  · intro db call held move request hcall
    exact after_presents_cases hcall db
  · intro db held request outcome hunknown
    exact RoundCall.after_settle_of_unknown hunknown db held request
  · intro db held request newHolderTaskId leaseSec current trace next stale
      call move request' hcurrent hnames hrun hid hfence hcall
    have hpresents := RoundCall.Presents.handoff held request newHolderTaskId leaseSec
    rw [RoundCall.after_of_presents hpresents, swap_of_names hcurrent hnames] at hrun
    exact stale_after_handoff hcurrent hnames hrun hid hfence hcall

/-- A store whose only round was just opened by `t1`. -/
def openedDb : RoundDb :=
  RoundCall.after { rounds := Table.empty, leases := Table.empty, outbox := [] }
    (.openRound "r" { requestId := "q1", nowUnix := 0 } "t1" 60 .absent)

def openedSnapshot : Round :=
  openedRound "r" { requestId := "q1", nowUnix := 0 } "t1" 60

/-- The same store after `t1` handed the round to `t2`. -/
def handedOffDb : RoundDb :=
  RoundCall.after openedDb (.handoff openedSnapshot { requestId := "q2", nowUnix := 1 } "t2" 60)

theorem round_mutex_fencing_stale_renew : openedSnapshot ∈ openedDb.rounds ∧
    (RoundCall.after handedOffDb
      (.renew openedSnapshot { requestId := "q3", nowUnix := 2 } 60)).rounds =
        handedOffDb.rounds := by
  have hmem : openedSnapshot ∈ openedDb.rounds := List.mem_singleton.mpr rfl
  refine ⟨hmem, ?_⟩
  exact (round_mutex_fencing.right.right.right.right openedDb openedSnapshot
    { requestId := "q2", nowUnix := 1 } "t2" 60 openedSnapshot [] handedOffDb
    openedSnapshot _ _ _ hmem ⟨rfl, rfl, rfl, rfl⟩ (.nil _) rfl
    (le_refl _) (RoundCall.Presents.renew _ _ _)).left

end State
end Hyperloom
