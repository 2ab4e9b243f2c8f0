import Hyperloom.Toolbox.Outcomes

/-!
# Every accepted test is settled

The log, the queue and the blackboard are written one after the other, with
retries and an abort.  Where no publish fails once the request row is on the
blackboard, the three agree enough for a toolbox without failures to bring
each test it accepted to one outcome, the same in the log and on the
blackboard.
-/

namespace Hyperloom
namespace Toolbox

open Blackboard
open Library

/-!
## What the log and the blackboard agree on
-/

namespace Life

def publishKept (life : Life) : LifeOp -> Bool
  | .publishRow (.failed appended) => !appended && life.rows.request.isNone
  | .publishAttach .failed => false
  | _ => true

/-- Withdrawals come in order and publishes do not fail late. -/
def inHand (life : Life) (op : LifeOp) : Bool := life.inOrder op && life.publishKept op

/-- The log has the one outcome recorded and the blackboard has nothing else; the
row of a returned test is there, and that of an aborted one is not. -/
structure Kept (requestId : String) (life : Life) : Prop extends Final life where
  outcomes : forall document, life.outcome = some document -> document.isOutcome = true
  row : forall row, life.rows.request = some row -> life.row = some row
  told : life.rows.final = true -> exists document,
    life.outcome = some document ∧ life.rows.Tells requestId document
  settled : life.entry.settled = true -> exists document,
    life.outcome = some document ∧ life.rows.Tells requestId document
  returned : life.returned = true -> life.rows.request.isSome = true
  aborted : life.entry.aborted = true -> life.rows.request = none

section

variable {requestId : String} {life next : Life} {op : LifeOp} {mode : Mode} {document : Document}

section

variable (h : life.Kept requestId)

include h

theorem Kept.outcome_of_mem (hmem : document ∈ life.recorded) : life.outcome = some document := by
  rw [h.recorded, Option.mem_toList] at hmem
  exact hmem

theorem Kept.write (houtcome : life.outcome = some document)
    (hrequest : life.rows.request.isSome = true) :
    exists rows, life.rows.write requestId document = .written rows := by
  apply TestRows.exists_write hrequest (h.outcomes document houtcome)
  cases hfinal : life.rows.final with
  | false => exact Or.inl rfl
  | true =>
    rcases h.told hfinal with ⟨other, hother, htells⟩
    cases houtcome.symm.trans hother
    exact Or.inr htells

theorem Kept.rewrite {rows : TestRows} (houtcome : life.outcome = some document)
    (hwrite : life.rows.write requestId document = .written rows) :
    Kept requestId { life with rows := rows } := by
  have hwritten := TestRows.write_tells hwrite
  exact { h with
      single := TestRows.single_of_tells hwritten.left
      row := by
        intro row hrow
        exact h.row row (hwritten.right ▸ hrow)
      told := fun _ => ⟨document, houtcome, hwritten.left⟩
      settled := fun _ => ⟨document, houtcome, hwritten.left⟩
      returned := fun hreturned => hwritten.right ▸ h.returned hreturned
      aborted := fun haborted => hwritten.right ▸ h.aborted haborted }

theorem Kept.settle
    (htells : exists document, life.outcome = some document ∧ life.rows.Tells requestId document) :
    life.settle.Kept requestId where
  __ := h
  settled := fun _ => htells

end

theorem Kept.change (hs : life.Sound requestId mode True)
    (h : life.Kept requestId) (hcondition : life.inHand op = true)
    (hchange : Change requestId True life op next) : next.Kept requestId := by
  have hkept : life.publishKept op = true := (Bool.and_eq_true_iff.mp hcondition).right
  have hfinal := h.toFinal.change hs hchange
  cases hchange with
  | remember _ memory =>
    exact { h with toFinal := hfinal }
  | record _ memory document hwaiting hkind =>
    have hnone := (outcome_of_waiting (hwaiting trivial)).left
    rcases hs.unrecorded hnone with ⟨_, hopen, hunsettled⟩
    exact { h with
        toFinal := hfinal
        outcomes := by
          intro other hother
          cases hother
          exact hkind
        told := fun hfinal => by cases hopen.symm.trans hfinal
        settled := fun hsettled => by cases hunsettled.symm.trans hsettled }
  | row memory row hrow hwaiting =>
    exact { h with
        toFinal := hfinal
        row := by
          intro other hother
          cases hother
          exact hrow
        returned := fun _ => rfl
        aborted := fun haborted => by
          cases (outcome_of_waiting hwaiting).right.symm.trans haborted }
  | conflictingRow memory row other hrow hother hne =>
    have hsame := (h.row other hother).symm.trans hrow
    exact absurd (Option.some.inj hsame) hne
  | failedRow memory appended row hrow =>
    have hfailed := Bool.and_eq_true_iff.mp hkept
    rcases Bool.not_eq_true' _ ▸ hfailed.left with rfl
    exact { h with
        toFinal := hfinal
        aborted := fun _ => Option.isNone_iff_eq_none.mp hfailed.right }
  | attached memory builds returned hknown hwaiting =>
    exact { h with toFinal := hfinal, returned := fun _ => hknown }
  | failedAttach memory => cases hkept
  | written document rows hmem hwrite =>
    have houtcome := h.outcome_of_mem hmem
    exact (h.rewrite houtcome hwrite).settle
      ⟨document, houtcome, (TestRows.write_tells hwrite).left⟩
  | conflicting document hmem hwrite =>
    rcases h.write (h.outcome_of_mem hmem)
      (TestRows.request_of_conflict hwrite) with ⟨rows, hwritten⟩
    cases hwrite.symm.trans hwritten
  | appended document rows hmem hwrite =>
    exact h.rewrite (h.outcome_of_mem hmem) hwrite

end

end Life

namespace RealToolbox

theorem sound_of_inHand {toolbox : RealToolbox}
    (h : toolboxMachine.ReachableWhere (Where Life.inHand) toolbox) : toolbox.Sound True :=
  sound_of_reachable True (fun _ _ _ hcondition => (Bool.and_eq_true_iff.mp hcondition).left) h

theorem kept_of_reachable {toolbox : RealToolbox}
    (h : toolboxMachine.ReachableWhere (Where Life.inHand) toolbox) :
    toolbox.Each fun requestId life => life.Kept requestId :=
  each_of_reachable True
    { memory := fun _ _ _ h => { h with }
      submitted := fun _ _ _ _ =>
        { recorded := rfl
          single := Or.inl rfl
          outcomes := fun _ h => nomatch h
          row := fun _ h => nomatch h
          told := nofun
          settled := nofun
          returned := nofun
          aborted := fun _ => rfl }
      change := fun _ _ _ _ _ hs hlife hcondition hchange => hlife.change hs hcondition hchange
      inOrder := fun _ _ _ hcondition => (Bool.and_eq_true_iff.mp hcondition).left } h

end RealToolbox

/-!
## What is left to do

A rank for each test that every step without a failure lowers.
-/

def RunPhase.rank : RunPhase -> Nat
  | .created => 10
  | .executing => 8
  | .pooling _ => 6
  | .writing => 4

def Publishing.rank : Publishing -> Nat
  | .row => 18
  | .attach => 16

def State.rank : State -> Nat
  | .pendingBuild => 14
  | .queued => 12
  | .running => 0

def Memory.rank (memory : Memory) : Nat := (if memory.toRecover then 20 else 0) +
  memory.publishing.elim 0 Publishing.rank + memory.item.elim 0 (fun item => item.state.rank) +
  memory.run.elim 0 (fun run => run.phase.rank) + 2 * memory.awaiting.length

namespace Life

def rank (life : Life) : Nat := life.memory.rank + life.unwritten.toNat

/-- The steps of a test that the process takes by itself, without a failure; an
outcome is written while the log has it as unwritten. -/
def quiet (life : Life) : LifeOp -> Bool
  | .recoverPrepare .raised => false
  | .publishRow (.failed _) => false
  | .publishAttach .failed => false
  | .withdraw _ => false
  | .writeOutcome document ending =>
    decide (ending = .done) && life.unwritten && decide (life.outcome = some document)
  | _ => true

end Life

theorem State.rank_le (state : State) (h : state ≠ .running) :
    12 ≤ state.rank ∧ state.rank ≤ 14 := by
  cases state with
  | running => exact absurd rfl h
  | _ => exact ⟨by decide, by decide⟩

theorem RunTask.Next.rank_lt {run : RunTask} {op : LifeOp}
    {after : Option RunTask} (h : Next run op after) :
    after.elim 0 (fun run => run.phase.rank) + 2 ≤ run.phase.rank := by
  cases h with
  | cancelled phase =>
    cases phase with
    | _ => simp [RunPhase.rank]
  | _ => simp [RunPhase.rank]

@[simp] theorem Stage.rank_running (item : QueuedTest) (phase : RunPhase) :
    (Stage.running item phase).memory.rank = item.state.rank + phase.rank := by
  simp [Stage.memory, Memory.rank]

@[simp] theorem Stage.rank_withdrawing (run : Option RunTask) (reasons : List String) :
    (Stage.withdrawing run reasons).memory.rank =
      run.elim 0 (fun run => run.phase.rank) + 2 * reasons.length := by
  simp [Stage.memory, Memory.rank]

@[simp] theorem Stage.rank_queued (item : QueuedTest) :
    (Stage.queued item).memory.rank = item.state.rank := by
  simp [Stage.memory, Memory.rank]

@[simp] theorem Stage.rank_publish (next : Publishing) :
    (Stage.publish next).memory.rank = next.rank := by
  simp [Stage.memory, Memory.rank]

@[simp] theorem Stage.rank_idle : Stage.idle.memory.rank = 0 := rfl

theorem Stage.Next.rank_lt {before after : Stage} {op : LifeOp} {life : Life}
    (h : Next before op after) (hquiet : life.quiet op = true)
    (hwrite : forall document ending, op ≠ .writeOutcome document ending) :
    after.memory.rank + 2 ≤ before.memory.rank := by
  cases h with
  | recoverWritten | prepared | rejected text | row | rowAborted ending => decide
  | attached builds item hstate =>
    have hrank := State.rank_le item.state hstate
    simp only [rank_queued, rank_publish, Publishing.rank]
    lia
  | unattached ending => decide
  | buildsReady item now hstate =>
    simp [hstate, State.rank]
  | buildsEnded item result hstate =>
    have hrank := State.rank_le item.state hstate
    simp only [rank_queued, rank_idle]
    lia
  | run item hrun =>
    have hrank := hrun.rank_lt
    simp only [rank_running, Option.elim_some] at hrank ⊢
    lia
  | runEnded item hrun =>
    have hrank := hrun.rank_lt
    simp only [rank_running, rank_idle] at hrank ⊢
    lia
  | detached reasons hrun =>
    have hrank := hrun.rank_lt
    simp only [rank_withdrawing, Option.elim_some] at hrank ⊢
    lia
  | resumeLast reason => simp
  | resume reason later rest =>
    simp only [rank_withdrawing, List.length_cons]
    lia
  | write stage document ending => exact absurd rfl (hwrite document ending)
  | _ => cases hquiet

theorem Stage.Next.rank_withdraw {before after : Stage} {reason : String}
    (h : Next before (.withdraw reason) after) : after.memory.rank ≤ before.memory.rank + 2 := by
  cases h with
  | withdrawAgain stage reason => exact Nat.le_add_right _ 2
  | run item hrun | runEnded item hrun | detached reasons hrun => cases hrun
  | _ => simp

namespace Life

variable {requestId : String} {mode : Mode} {orderly : Prop} {life next : Life} {op : LifeOp}

theorem unwritten_settle : life.settle.unwritten = false := by
  unfold unwritten LogEntry.unwritten
  simp [settle]

theorem writeOutcome_done {document : Document}
    (h : life.writeOutcome requestId document .done = some next) :
    next.unwritten = false ∧ next.memory = life.memory := by
  simp only [writeOutcome] at h
  split at h
  · cases h
    exact ⟨unwritten_settle, rfl⟩
  · cases h
    exact ⟨unwritten_settle, rfl⟩
  · cases h

theorem rank_of_quiet {process : Process} (hs : life.Sound requestId process.mode orderly)
    (horderly : orderly -> life.inOrder op = true) (hquiet : life.quiet op = true)
    (h : life.step requestId process op = some next) : next.rank + 1 ≤ life.rank := by
  by_cases hwrite : exists document ending, op = .writeOutcome document ending
  · rcases hwrite with ⟨document, ending, rfl⟩
    simp only [quiet, Bool.and_eq_true, decide_eq_true_eq] at hquiet
    rcases hquiet with ⟨⟨rfl, hunwritten⟩, _⟩
    simp only [step] at h
    split at h
    · rcases writeOutcome_done h with ⟨hsettled, hmemory⟩
      unfold rank
      rw [hsettled, hmemory, hunwritten, Bool.toNat_false, Bool.toNat_true]
    · cases h
  · rcases (step_advances hs horderly h).moves with ⟨before, after, hbefore, hafter, hnext⟩
    have hlower := hnext.rank_lt hquiet (fun document ending hop => hwrite ⟨document, ending, hop⟩)
    have hle := Bool.toNat_le next.unwritten
    unfold rank
    lia

theorem rank_of_withdraw {process : Process} {reason : String}
    (hs : life.Sound requestId process.mode orderly)
    (horderly : orderly -> life.inOrder (.withdraw reason) = true)
    (h : life.step requestId process (.withdraw reason) = some next) :
    next.rank ≤ life.rank + 20 := by
  rcases (step_advances hs horderly h).moves with ⟨before, after, hbefore, hafter, hnext⟩
  have hraise := hnext.rank_withdraw
  have hle := Bool.toNat_le next.unwritten
  unfold rank
  lia

theorem rank_lost_le (life : Life) : life.lost.rank ≤ life.rank :=
  Nat.add_le_add_right (Nat.zero_le _) _

theorem rank_reprioritised (policy : QueuePolicy) (life : Life) :
    (life.reprioritised policy).rank = life.rank := by
  unfold rank reprioritised Memory.rank
  cases life.memory.item with
  | none => rfl
  | some item =>
    simp only [Option.map_some, Option.elim_some, item.reprioritise_state policy]
    rfl

theorem rank_started {item : QueuedTest} (hs : life.Sound requestId mode orderly)
    (hitem : life.memory.item = some item) (hstate : item.state = .queued) :
    life.started.rank + 1 ≤ life.rank := by
  have hbefore : (Stage.queued item).memory.rank = 12 := by
    simp [hstate, State.rank]
  have hafter : (Stage.running { item with state := .running } .created).memory.rank = 10 := by
    simp [State.rank, RunPhase.rank]
  unfold rank started
  rw [(hs.queued_of_item hitem (by simp [hstate])).left, hbefore]
  show (Stage.running { item with state := .running }
    .created).memory.rank + life.unwritten.toNat + 1 ≤ _
  lia

end Life

variable {test : Test}

namespace RealToolbox

variable (toolbox : RealToolbox)

/-- The most steps the process takes by itself from here on, unless it is
called. -/
def remaining : Nat :=
  toolbox.weigh Life.rank + (decide (toolbox.mode = .recovering)).toNat

def isCall : ToolboxOp -> Bool
  | .submit _ _ _ => true
  | .setPolicy _ => true
  | .test _ (.withdraw _) => true
  | _ => false

/-- The steps the process takes by itself, without a failure. -/
def quiet : ToolboxOp -> Bool
  | .started => true
  | .take _ => true
  | .test requestId op =>
    (toolbox.tests.find? requestId).any fun test => test.life.quiet op
  | _ => false

/-- A toolbox that serves calls and has no failures; withdrawals come in
order. -/
def Serving (op : ToolboxOp) : Prop :=
  Where Life.inHand toolbox op ∧ (isCall op || toolbox.quiet op) = true

instance (op : ToolboxOp) : Decidable (Serving toolbox op) :=
  inferInstanceAs (Decidable (_ ∧ _))

/-- No step is left that the process takes by itself, with so many tests at
once as the cards allow. -/
def Still (parallelLimit : Option PNat) : Prop :=
  forall op, toolbox.quiet op = true ->
    (forall limit, op = .take limit -> limit = parallelLimit) -> toolbox.step op = none

section

variable {toolbox next : RealToolbox} {op : ToolboxOp}

theorem remaining_stopped_le (toolbox : RealToolbox) :
    toolbox.stopped.remaining ≤ toolbox.weigh Life.rank :=
  weigh_withLives_le Life.rank Life.lost Life.rank_lost_le

variable {requestId : String}

theorem remaining_update (hfind : toolbox.tests.find? requestId = some test) (life : Life) :
    (toolbox.update requestId life).remaining + test.life.rank = toolbox.remaining + life.rank := by
  have hexchange := weigh_update hfind life Life.rank
  have hmode : (toolbox.update requestId life).mode = toolbox.mode := rfl
  unfold remaining
  lia

theorem remaining_moved_le {life after : Life} {inner : LifeOp} :
    (toolbox.moved requestId life after inner).remaining ≤
      (toolbox.update requestId after).remaining := by
  unfold moved
  split
  · exact Nat.le_trans (remaining_stopped_le _) (Nat.le_add_right _ _)
  · unfold remaining
    rw [weigh_arrived, mode_arrived]

theorem inOrder_of_serving {inner : LifeOp} (h : Serving toolbox (.test requestId inner))
    (hfind : toolbox.tests.find? requestId = some test) : test.life.inOrder inner = true :=
  (Bool.and_eq_true_iff.mp (Where.holds h.left hfind)).left

theorem remaining_quiet (h : toolbox.Sound True)
    (hserving : Serving toolbox op) (hcall : isCall op = false)
    (hstep : toolbox.step op = some next) : next.remaining + 1 ≤ toolbox.remaining := by
  have hquiet : toolbox.quiet op = true := by
    have hboth := hserving.right
    rw [hcall] at hboth
    exact hboth
  cases moves_of_step hstep with
  | started hmode hrecovered =>
    unfold remaining
    rw [hmode]
    exact Nat.le_refl _
  | @take _ item test htake hfind =>
    have hlower := Life.rank_started (Each.find h hfind)
      (h.item_of_take htake hfind) (take_eq_some htake).right.left
    have hexchange := remaining_update hfind test.life.started
    lia
  | @test requestId inner test life hfind hlife =>
    have hinner : test.life.quiet inner = true := by
      simp only [RealToolbox.quiet, hfind] at hquiet
      exact hquiet
    have hlower := Life.rank_of_quiet (Each.find h hfind)
      (fun _ => inOrder_of_serving hserving hfind) hinner hlife
    have hexchange := remaining_update hfind life
    have hmoved : (toolbox.moved requestId test.life life inner).remaining ≤ _ := remaining_moved_le
    lia
  | _ => cases hquiet

theorem remaining_call (h : toolbox.Sound True) (hserving : Serving toolbox op)
    (hcall : isCall op = true) (hstep : toolbox.step op = some next) :
    next.remaining ≤ toolbox.remaining + 20 := by
  cases moves_of_step hstep with
  | setPolicy policy =>
    have hweigh : (toolbox.withLives (Life.reprioritised policy)).weigh
        Life.rank ≤ toolbox.weigh Life.rank :=
      weigh_withLives_le Life.rank (Life.reprioritised policy)
        fun life => Nat.le_of_eq (Life.rank_reprioritised policy life)
    exact Nat.le_trans (Nat.add_le_add_right hweigh _) (Nat.le_add_right _ 20)
  | @submit request sequence now tests hmode hnew =>
    have hweigh := weigh_insertNew hnew Life.rank
    have hrank : (Life.submitted toolbox.policy request sequence now).rank = 18 := rfl
    unfold remaining
    lia
  | @test requestId inner test life hfind hlife =>
    cases inner with
    | withdraw reason =>
      have hraise := Life.rank_of_withdraw (Each.find h hfind)
        (fun _ => inOrder_of_serving hserving hfind) hlife
      have hexchange := remaining_update hfind life
      have hmoved : (toolbox.moved requestId test.life life
        (.withdraw reason)).remaining ≤ _ := remaining_moved_le
      lia
    | _ => cases hcall
  | _ => cases hcall

end

end RealToolbox

/-!
## A toolbox with nothing left to do
-/

namespace Life

section

variable {requestId : String} {process : Process} {life next : Life} {op : LifeOp}

theorem Kept.raises (h : life.Kept requestId) (hchange : Change requestId True life op next)
    (hop : life.quiet op = true ∨ exists reason, op = .withdraw reason) :
    RealToolbox.raises life next op = false := by
  have hnot : op ≠ .recoverPrepare .raised ∧
      (forall appended, op ≠ .publishRow (.failed appended)) ∧ op ≠ .publishAttach .failed := by
    rcases hop with hquiet | ⟨reason, rfl⟩
    · refine ⟨?_, ?_, ?_⟩
      · intro heq
        subst heq
        cases hquiet
      · intro appended heq
        subst heq
        cases hquiet
      · intro heq
        subst heq
        cases hquiet
    · simp
  have hsame : next.entry.aborted = life.entry.aborted := by
    cases hchange with
    | conflictingRow memory row other hrow hother hne =>
      have hsame := (h.row other hother).symm.trans hrow
      exact absurd (Option.some.inj hsame) hne
    | failedRow memory appended row _ => exact absurd rfl (hnot.right.left _)
    | failedAttach memory => exact absurd rfl hnot.right.right
    | _ => rfl
  unfold RealToolbox.raises
  split
  · exact absurd rfl hnot.left
  rw [hsame]
  exact Bool.and_not_self _

theorem Sound.of_still (hs : life.Sound requestId process.mode True) (hup : process.mode ≠ .down)
    (hstill : forall op, life.quiet op = true -> life.step requestId process op = none) :
    (exists item, life.memory.item = some item ∧ item.state = .queued) ∨
      (life.memory.item = none ∧ life.waiting = false) := by
  rcases hs.staged with ⟨stage, hmemory, hfits⟩
  rcases hs.named with ⟨request, haccepted, _⟩
  cases stage with
  | idle =>
    rcases hfits with hdown | hdone
    · exact absurd hdown hup
    · exact Or.inr ⟨by rw [hmemory]; rfl, hdone⟩
  | recover =>
    cases houtcome : life.outcome with
    | some document =>
      have hnone := hstill .recoverWritten rfl
      simp [step, Life.recoverWritten, hmemory, Stage.memory, houtcome] at hnone
    | none =>
      have hopen := (hs.unrecorded houtcome).right.left
      have hnone := hstill (.recoverPrepare .accepted) rfl
      simp [step, Life.recoverPrepare, hmemory, Stage.memory, houtcome, hopen] at hnone
  | publish next =>
    cases next with
    | row =>
      have hnone := hstill (.publishRow .done) rfl
      simp only [step, Life.publishRow, hmemory, Stage.memory, Life.row,
        haccepted, Option.map_some] at hnone
      split at hnone
      · cases hnone
      · cases hnone
    | attach =>
      have hnone := hstill (.publishAttach (.attached false)) rfl
      simp [step, Life.publishAttach, hmemory, Stage.memory, haccepted] at hnone
  | queued item =>
    cases hstate : item.state with
    | pendingBuild =>
      have hnone := hstill (.buildsReady 0) rfl
      simp [step, Life.buildsReady, hmemory, Stage.memory, hstate] at hnone
    | queued => exact Or.inl ⟨item, by rw [hmemory]; rfl, hstate⟩
    | running => exact absurd hstate hfits.right.right.right
  | running item phase =>
    cases phase with
    | created =>
      have hnone := hstill .beginRun rfl
      simp [step, Life.beginRun, hmemory, Stage.memory] at hnone
    | executing =>
      have hnone := hstill (.executed (.raised "")) rfl
      simp [step, Life.executed, hmemory, Stage.memory] at hnone
    | pooling result =>
      have hnone := hstill (.pooled result) rfl
      simp [step, Life.pooled, hmemory, Stage.memory] at hnone
    | writing =>
      have hnone := hstill .runEnd rfl
      simp [step, Life.runEnd, hmemory, Stage.memory] at hnone
  | withdrawing run reasons =>
    rcases hfits with ⟨_, hreasons, hdetached⟩
    cases run with
    | none =>
      cases reasons with
      | nil => exact absurd rfl hreasons
      | cons reason rest =>
        have hnone := hstill .resume rfl
        simp [step, Life.resume, hmemory, Stage.memory] at hnone
    | some task =>
      have htask := hdetached task rfl
      rcases task with ⟨phase, cancelled⟩
      cases phase with
      | created =>
        have hcancelled : cancelled = true := htask.unstarted rfl
        have hnone := hstill .runCancelled rfl
        simp [step, Life.runCancelled, hmemory, Stage.memory, hcancelled] at hnone
      | executing =>
        have hnone := hstill (.executed (.raised "")) rfl
        simp [step, Life.executed, hmemory, Stage.memory] at hnone
      | pooling result =>
        cases cancelled with
        | true =>
          have hnone := hstill .runCancelled rfl
          simp [step, Life.runCancelled, hmemory, Stage.memory] at hnone
        | false =>
          have hnone := hstill (.pooled result) rfl
          simp [step, Life.pooled, hmemory, Stage.memory] at hnone
      | writing =>
        have hnone := hstill .runEnd rfl
        simp [step, Life.runEnd, hmemory, Stage.memory] at hnone

theorem Kept.settled_of_still (h : life.Kept requestId) (hup : process.mode ≠ .down)
    (hstill : forall op, life.quiet op = true -> life.step requestId process op = none)
    (hdone : life.waiting = false) (hreturned : life.returned = true) :
    life.entry.settled = true := by
  have hrequest := h.returned hreturned
  have haborted : life.entry.aborted = false := by
    apply Bool.eq_false_iff.mpr
    intro htrue
    rw [h.aborted htrue] at hrequest
    cases hrequest
  cases houtcome : life.outcome with
  | none =>
    have hwaiting : life.waiting = true := by
      unfold waiting LogEntry.waiting
      rw [haborted]
      unfold outcome at houtcome
      rw [houtcome]
      rfl
    cases hdone.symm.trans hwaiting
  | some document =>
    cases hsettled : life.entry.settled with
    | true => rfl
    | false =>
      have hunwritten : life.unwritten = true := by
        unfold unwritten LogEntry.unwritten
        unfold outcome at houtcome
        rw [houtcome, hsettled, haborted]
        rfl
      have hmem : document ∈ life.recorded := by
        rw [h.recorded, houtcome]
        exact List.mem_singleton.mpr rfl
      rcases h.write houtcome hrequest with ⟨rows, hwrite⟩
      have hnone := hstill (.writeOutcome document .done) (by simp [quiet, hunwritten, houtcome])
      simp [step, writeOutcome, hup, hmem, hwrite] at hnone

end

end Life

namespace RealToolbox

section

variable {toolbox next : RealToolbox} {op : ToolboxOp} {parallelLimit : Option PNat}

theorem Still.life (h : toolbox.Still parallelLimit) {requestId : String}
    (hfind : toolbox.tests.find? requestId = some test) (inner : LifeOp)
    (hquiet : test.life.quiet inner = true) :
    test.life.step requestId toolbox.toProcess inner = none := by
  have hnone := h (.test requestId inner)
    (by simp only [RealToolbox.quiet, hfind, Option.any_some, hquiet])
    (by intro limit hop; cases hop)
  simp only [RealToolbox.step, hfind] at hnone
  split at hnone
  · rename_i hstep
    exact hstep
  · cases hnone

/-- Where no step is left the queue is empty: an item that may not start has a
running one before it, and that one has a step left. -/
theorem Still.waiting (h : toolbox.Still parallelLimit)
    (hs : toolbox.Sound True) (hup : toolbox.mode ≠ .down) :
    toolbox.Each fun _ life => life.waiting = false := by
  have hlife : forall test, test ∈ toolbox.tests ->
      (exists item, test.life.memory.item = some item ∧ item.state = .queued) ∨
      (test.life.memory.item = none ∧ test.life.waiting = false) := by
    intro test htest
    exact (hs test htest).of_still hup (h.life (Table.find?_eq_some.mpr ⟨htest, rfl⟩))
  intro test htest
  rcases hlife test htest with ⟨item, hitem, hstate⟩ | ⟨_, hdone⟩
  · have hqueued : item ∈ toolbox.items := List.mem_filterMap.mpr ⟨test, htest, hitem⟩
    have hnone := h (.take parallelLimit) rfl (by intro limit hop; cases hop; rfl)
    simp only [RealToolbox.step, if_neg hup] at hnone
    split at hnone
    · rename_i htake
      rcases exists_running_of_take_none htake hqueued hstate with ⟨busy, hbusy, hrunning⟩
      rcases List.mem_filterMap.mp hbusy with ⟨owner, howner, hheld⟩
      rcases hlife owner howner with ⟨other, hother, hwaits⟩ | ⟨hempty, _⟩
      · cases hheld.symm.trans hother
        cases hrunning.symm.trans hwaits
      · cases hheld.symm.trans hempty
    · rename_i next htake
      rcases hs.owner_of_mem (take_eq_some htake).left with ⟨owner, hfind, _⟩
      rw [hfind] at hnone
      cases hnone
  · exact hdone

theorem up_of_serving (hs : toolbox.Sound True)
    (hkept : toolbox.Each fun requestId life => life.Kept requestId)
    (hup : toolbox.mode ≠ .down) (hserving : Serving toolbox op)
    (hstep : toolbox.step op = some next) : next.mode ≠ .down := by
  cases moves_of_step hstep with
  | restart hdown => exact absurd hdown hup
  | crash => cases hserving.right
  | started hmode hrecovered => nofun
  | @test requestId inner test life hfind hlife =>
    have hadvance := Life.step_advances (Each.find hs hfind)
      (fun _ => inOrder_of_serving hserving hfind) hlife
    have hop : test.life.quiet inner = true ∨ exists reason, inner = .withdraw reason := by
      rcases Bool.or_eq_true_iff.mp hserving.right with hcall | hquiet
      · cases inner with
        | withdraw reason => exact Or.inr ⟨reason, rfl⟩
        | _ => cases hcall
      · simp only [RealToolbox.quiet, hfind] at hquiet
        exact Or.inl hquiet
    have hraises := (Each.find hkept hfind).raises hadvance.change hop
    unfold moved
    rw [hraises, if_neg (by simp), mode_arrived]
    exact hup
  | _ => exact hup

/-- Along a run without failures the toolbox stays up. -/
structure Up (toolbox : RealToolbox) : Prop where
  reachable : toolboxMachine.ReachableWhere (Where Life.inHand) toolbox
  up : toolbox.mode ≠ .down

theorem Up.step (h : toolbox.Up) (hserving : Serving toolbox op)
    (hstep : toolbox.step op = some next) : next.Up where
  reachable := h.reachable.step hserving.left hstep
  up := up_of_serving (sound_of_inHand h.reachable)
    (kept_of_reachable h.reachable) h.up hserving hstep

end

end RealToolbox

/-- A toolbox that is up and has no failures takes boundedly many steps by
itself, whatever it is called for, and where none is left every test whose
submit returned has one outcome on the blackboard, the one its settled log
entry has.  No aborted entry has a row in flight. -/
theorem accepted_tests_settle {toolbox later : RealToolbox} {trace : List ToolboxOp}
    (hreachable : toolboxMachine.ReachableWhere (RealToolbox.Where Life.inHand) toolbox)
    (hup : toolbox.mode ≠ .down)
    (hrun : toolboxMachine.Run RealToolbox.Serving toolbox trace later) :
    trace.countP (fun op => !RealToolbox.isCall op) ≤
        toolbox.remaining + 20 * trace.countP RealToolbox.isCall ∧
      later.mode ≠ .down ∧
      (later.Each fun _ life => ¬ (life.entry.aborted = true ∧ life.rows.inFlight = true)) ∧
      forall parallelLimit, later.Still parallelLimit ->
        later.Each fun requestId life => life.returned = true ->
          life.entry.settled = true ∧ exists document, life.outcome = some document ∧
            life.rows.Tells requestId document := by
  have hstart : toolbox.Up := ⟨hreachable, hup⟩
  have hstep : forall toolbox op next, toolbox.Up ->
      RealToolbox.Serving toolbox op -> toolbox.step op = some next -> next.Up :=
    fun _ _ _ hinv hserving hone => hinv.step hserving hone
  have hlater := hrun.invariant hstep hstart
  have hkept := RealToolbox.kept_of_reachable hlater.reachable
  have hsound := RealToolbox.sound_of_inHand hlater.reachable
  refine ⟨?_, hlater.up, ?_, ?_⟩
  · have hbound := hrun.countP_le RealToolbox.remaining (fun op => !RealToolbox.isCall op) 20 hstep
      (fun toolbox op next hinv hserving hcall hone =>
        RealToolbox.remaining_quiet (RealToolbox.sound_of_inHand hinv.reachable) hserving
          (Bool.not_eq_true' _ ▸ hcall) hone) (fun toolbox op next hinv hserving hcall hone =>
        RealToolbox.remaining_call (RealToolbox.sound_of_inHand hinv.reachable) hserving
          (Bool.not_eq_false' _ ▸ hcall) hone) hstart
    lia
  · refine hkept.mono fun requestId life hlife hboth => ?_
    have hrow := hlife.aborted hboth.left
    have hflight := hboth.right
    unfold TestRows.inFlight at hflight
    rw [hrow] at hflight
    cases hflight
  · intro parallelLimit hstill test htest hreturned
    have hlife := hkept test htest
    have hsettled := hlife.settled_of_still hlater.up
      (hstill.life (Table.find?_eq_some.mpr ⟨htest, rfl⟩))
      (hstill.waiting hsound hlater.up test htest) hreturned
    exact ⟨hsettled, hlife.settled hsettled⟩

namespace ToolboxExample

def ready : RealToolbox := { start with mode := .running }

theorem ready_reachable : toolboxMachine.ReachableWhere (RealToolbox.Where Life.inHand) ready := by
  have hrun : toolboxMachine.runIf (RealToolbox.Where Life.inHand) start up = some ready := rfl
  exact Machine.ReachableWhere.of_runIf ⟨rfl, rfl⟩ hrun

def measured : TestResult where
  requestId := "r1"
  validity := .succeeded

def served : List ToolboxOp :=
  published "r1" "b1" ++ taken "r1" ++ [.test "r1" (.executed (.returned measured)),
    .test "r1" (.pooled measured), .test "r1" (.writeOutcome (.result measured) .done),
    .test "r1" .runEnd]

/-- A submit returns, the process is gone, and while the next one recovers, its
call to attach the claim fails and with it the start.  The one after that goes
over the log without the test. -/
def lateFailure : List ToolboxOp :=
  up ++ [.submit (request "r1" "b1" (some "intent")) 1 0, .test "r1" (.publishRow .done),
    .test "r1" (.publishAttach (.attached false)), .crash, .restart,
    .test "r1" (.recoverPrepare .accepted), .test "r1" (.publishRow .done),
    .test "r1" (.publishAttach .failed)] ++ up

end ToolboxExample

theorem accepted_tests_settle_measured :
    exists later, toolboxMachine.Run RealToolbox.Serving ToolboxExample.ready
        ToolboxExample.served later ∧
      later.tests.rows.map (fun test =>
        (test.life.returned, test.life.rows.result)) = [(true, some ToolboxExample.measured)] ∧
      ToolboxExample.served.countP (fun op => !RealToolbox.isCall op) ≤
        ToolboxExample.ready.remaining + 20 * ToolboxExample.served.countP RealToolbox.isCall ∧
      later.mode ≠ .down ∧
      (later.Each fun _ life => ¬ (life.entry.aborted = true ∧ life.rows.inFlight = true)) ∧
      forall parallelLimit, later.Still parallelLimit ->
        later.Each fun requestId life => life.returned = true ->
          life.entry.settled = true ∧ exists document, life.outcome = some document ∧
            life.rows.Tells requestId document := by
  rcases Machine.Run.exists_of_runIf (M := toolboxMachine) (C := RealToolbox.Serving)
      (P := fun later => later.tests.rows.map (fun test =>
        (test.life.returned, test.life.rows.result)) = [(true, some ToolboxExample.measured)])
      ToolboxExample.ready ToolboxExample.served (by decide +kernel) with
    ⟨later, hrun, hrows⟩
  exact ⟨later, hrun, hrows, accepted_tests_settle ToolboxExample.ready_reachable (by decide) hrun⟩

/-- A returned test is aborted by a recovery and its row stays in flight, with
the toolbox up and nothing left to do. -/
theorem returned_test_stays_in_flight :
    exists toolbox, toolboxMachine.Reachable toolbox ∧
      toolbox.mode = .running ∧ toolbox.remaining = 0 ∧
      toolbox.tests.rows.map (fun test =>
        (test.life.returned, test.life.entry.aborted,
          test.life.rows.inFlight)) = [(true, true, true)] :=
  Machine.Reachable.exists_of_runIf ToolboxExample.start ToolboxExample.lateFailure
    ⟨rfl, rfl⟩ (by decide +kernel)

end Toolbox
end Hyperloom
