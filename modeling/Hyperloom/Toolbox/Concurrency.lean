import Hyperloom.Toolbox.RealToolbox

/-!
# How many tests are in the executor

`take` counts the queue's running items; what the limits are for is the number
of executor calls.  A withdrawal takes the item out of the queue before the
call it cancels has ended, so the two part.
-/

namespace Hyperloom
namespace Toolbox

open Blackboard
open Library (Machine Table)

variable {op : LifeOp}

/-!
## The runs of one test
-/

namespace RunTask

def inExecutor : RunTask -> Bool
  | ⟨.executing, _⟩ => true
  | _ => false

def mayExecute : RunTask -> Bool
  | ⟨.created, false⟩ => true
  | ⟨.executing, _⟩ => true
  | _ => false

theorem mayExecute_of_inExecutor {run : RunTask} (h : run.inExecutor = true) :
    run.mayExecute = true := by
  rcases run with ⟨phase, cancelled⟩
  cases phase with
  | executing => rfl
  | _ => cases h

theorem Next.mayExecute {run after : RunTask} (hnext : Next run op (some after))
    (h : after.mayExecute = true) : run.mayExecute = true := by
  cases hnext with
  | begins => rfl
  | _ => cases h

end RunTask

namespace Memory

def inExecutor (memory : Memory) : Bool := memory.run.any RunTask.inExecutor

def mayExecute (memory : Memory) : Bool := memory.run.any RunTask.mayExecute

theorem mayExecute_of_inExecutor {memory : Memory}
    (h : memory.inExecutor = true) : memory.mayExecute = true := by
  unfold inExecutor at h
  unfold mayExecute
  cases hrun : memory.run with
  | none =>
    rw [hrun] at h
    cases h
  | some run =>
    rw [hrun] at h
    exact RunTask.mayExecute_of_inExecutor h

end Memory

theorem Stage.Next.mayExecute {before after : Stage}
    (hnext : Next before op after) (h : after.memory.mayExecute = true) :
    before.memory.mayExecute = true := by
  cases hnext with
  | run item hrun => exact RunTask.Next.mayExecute hrun h
  | @detached reasons run after op hrun =>
    cases after with
    | none => cases h
    | some later => exact RunTask.Next.mayExecute hrun h
  | withdrawRunning item phase reason =>
    cases phase with
    | executing => rfl
    | _ => cases h
  | withdrawAgain stage reason => exact h
  | write stage document ending => exact h
  | _ => cases h

namespace Life

section

variable {requestId : String} {orderly : Prop} {life : Life} {mode : Mode}

/-- A test that may execute has a running item, unless it is withdrawn and its
executor call has not ended. -/
theorem Sound.item_of_mayExecute (hs : life.Sound requestId mode orderly)
    (h : life.memory.mayExecute = true)
    (hkept : life.memory.inExecutor = true -> life.memory.registered = true) :
    exists item, life.memory.item = some item ∧ item.state = .running := by
  rcases hs.staged with ⟨stage, hmemory, hfits⟩
  rw [hmemory] at h hkept ⊢
  cases stage with
  | running item phase => exact ⟨item, rfl, hfits.right.right.left⟩
  | withdrawing run reasons =>
    cases run with
    | none => cases h
    | some task =>
      have hdetached := hfits.right.right task rfl
      rcases task with ⟨phase, cancelled⟩
      cases phase with
      | created =>
        rcases hdetached.unstarted rfl with rfl
        cases h
      | executing => cases hkept rfl
      | _ => cases h
  | _ => cases h

end

variable (counts : TestRequest -> Bool) (life : Life)

def counted : Bool :=
  life.memory.mayExecute && life.accepted.any counts

def slots : Nat := (life.counted counts).toNat

theorem Change.accepted {requestId : String} {orderly : Prop} {life next : Life}
    (h : Change requestId orderly life op next) : next.accepted = life.accepted := by
  cases h <;> rfl

theorem Advances.slots_le {requestId : String} {mode : Mode} {orderly : Prop}
    {life next : Life} (counts : TestRequest -> Bool)
    (h : Advances requestId mode orderly life op next) : next.slots counts ≤ life.slots counts := by
  apply Bool.toNat_le_toNat
  unfold counted
  rw [h.change.accepted]
  rcases h.moves with ⟨before, after, hbefore, hafter, hnext⟩
  rw [hbefore, hafter]
  cases hnow : after.memory.mayExecute with
  | true => rw [hnext.mayExecute hnow]
  | false => exact Bool.false_le _

theorem slots_lost : life.lost.slots counts ≤ life.slots counts :=
  Nat.zero_le _

theorem slots_restarted : life.restarted.slots counts ≤ life.slots counts := by
  unfold restarted
  split
  · exact Nat.le_refl _
  · exact Nat.zero_le _

end Life

/-!
## The runs of a toolbox
-/

namespace RealToolbox

variable (toolbox : RealToolbox)

def executing : List Test :=
  toolbox.tests.rows.filter fun test => test.life.memory.inExecutor

def takesSlot (branch : String) (request : TestRequest) : Bool :=
  decide (request.branch = branch) && !exemptFromK request

def executingCounted (branch : String) : List Test :=
  toolbox.executing.filter fun test => test.life.accepted.any (takesSlot branch)

def load (counts : TestRequest -> Bool) : Nat :=
  toolbox.weigh (Life.slots counts)

def callsKept : Bool :=
  toolbox.tests.rows.all fun test => !test.life.memory.inExecutor || test.life.memory.registered

variable (parallelLimit : Option PNat)

def Fixed (_ : RealToolbox) : ToolboxOp -> Prop
  | .setPolicy _ => False
  | .take limit => limit = parallelLimit
  | _ => True

variable (toolbox : RealToolbox) (op : ToolboxOp)

instance : Decidable (Fixed parallelLimit toolbox op) := by
  unfold Fixed
  split
  · infer_instance
  · infer_instance
  · infer_instance

def takes : ToolboxOp -> Bool
  | .take _ => true
  | _ => false

/-- Besides, no test is taken while a withdrawn one is still in its executor
call. -/
def Paced : Prop :=
  Fixed parallelLimit toolbox op ∧ (takes op = true -> toolbox.callsKept = true)

instance : Decidable (Paced parallelLimit toolbox op) :=
  inferInstanceAs (Decidable (_ ∧ _))

section

variable {toolbox next : RealToolbox} {counts : TestRequest -> Bool} {orderly : Prop}

theorem load_stopped_le : toolbox.stopped.load counts ≤ toolbox.load counts :=
  weigh_withLives_le _ Life.lost (Life.slots_lost counts)

def runningOf (toolbox : RealToolbox) (counts : TestRequest -> Bool) : Nat :=
  ((runningItems toolbox.items).filter fun item => counts item.request).length

theorem Sound.load_le (h : toolbox.Sound orderly) (hkept : toolbox.callsKept = true) :
    toolbox.load counts ≤ toolbox.runningOf counts := by
  have hitems : toolbox.runningOf counts = toolbox.tests.total fun test =>
      (test.life.memory.item.any fun item =>
        counts item.request && decide (item.state = .running)).toNat := by
    unfold runningOf runningItems items
    rw [List.filter_filter, ← List.countP_eq_length_filter,
      List.countP_filterMap, Table.total_toNat, ← List.countP_eq_length_filter]
    apply List.countP_congr
    intro test _
    cases test.life.memory.item with
    | _ => rfl
  rw [hitems]
  apply Table.total_le_total
  intro test htest
  apply Bool.toNat_le_toNat
  cases hcounted : test.life.counted counts with
  | false => exact Bool.false_le _
  | true =>
    unfold Life.counted at hcounted
    rw [Bool.and_eq_true] at hcounted
    have hregistered := List.all_eq_true.mp hkept test htest
    have hlife := h test htest
    rcases hlife.item_of_mayExecute hcounted.left (by
        intro hin
        rw [hin] at hregistered
        exact hregistered) with ⟨item, hitem, hstate⟩
    have hcounts := hcounted.right
    rw [hlife.accepted_of_item hitem, Option.any_some] at hcounts
    rw [hitem, Option.any_some, hcounts, hstate]
    exact Bool.le_refl _

theorem Sound.load_step_le (h : toolbox.Sound False) {op : ToolboxOp}
    (hop : forall limit, op ≠ .take limit) (hstep : toolbox.step op = some next) :
    next.load counts ≤ toolbox.load counts := by
  cases moves_of_step hstep with
  | restart hdown =>
    exact weigh_withLives_le _ Life.restarted (Life.slots_restarted counts)
  | crash => exact load_stopped_le
  | started hmode hrecovered => exact Nat.le_refl _
  | setPolicy policy =>
    exact weigh_withLives_le (Life.slots counts)
      (Life.reprioritised policy) fun life => Nat.le_refl _
  | submit hmode hnew => exact Nat.le_of_eq (weigh_insertNew hnew _)
  | take htake hfind => exact absurd rfl (hop _)
  | @test requestId inner test life hfind hlife =>
    have hadvance := Life.step_advances (Each.find h hfind) (fun hfalse => hfalse.elim) hlife
    have hexchange := weigh_update hfind life (Life.slots counts)
    have hle := hadvance.slots_le counts
    have hupdated : (toolbox.update requestId life).load counts ≤ toolbox.load counts := by
      unfold load
      lia
    unfold RealToolbox.moved
    split
    · exact Nat.le_trans load_stopped_le hupdated
    · exact Nat.le_trans (Nat.le_of_eq (weigh_arrived inner)) hupdated

variable {limit : Option PNat}

theorem Sound.load_take_le (h : toolbox.Sound orderly)
    (hkept : toolbox.callsKept = true) {bound : Nat}
    (hload : toolbox.load counts ≤ bound) (hfree : forall item,
      Toolbox.take toolbox.policy limit toolbox.items = some item ->
      counts item.request = true -> toolbox.runningOf counts < bound)
    (hstep : toolbox.step (.take limit) = some next) : next.load counts ≤ bound := by
  cases moves_of_step hstep with
  | @take _ item test htake hfind =>
    have hitem := h.item_of_take htake hfind
    have haccepted := (Each.find h hfind).accepted_of_item hitem
    have hexchange := weigh_update hfind test.life.started (Life.slots counts)
    have hstarted : test.life.started.slots counts = (counts item.request).toNat := by
      show (true && test.life.accepted.any counts).toNat = _
      rw [haccepted]
      rfl
    rw [hstarted] at hexchange
    unfold load at hload ⊢
    cases hcounts : counts item.request with
    | false =>
      rw [hcounts, Bool.toNat_false] at hexchange
      lia
    | true =>
      have hbelow := hfree item htake hcounts
      have hmost : toolbox.load counts ≤ toolbox.runningOf counts := h.load_le hkept
      unfold load at hmost
      rw [hcounts, Bool.toNat_true] at hexchange
      lia

/-!
## The limits along a run
-/

theorem policy_arrived (op : LifeOp) : (toolbox.arrived op).policy = toolbox.policy := by
  unfold RealToolbox.arrived
  split
  · rfl
  · rfl

structure Within (toolbox : RealToolbox) (parallelLimit : Option PNat) : Prop where
  sound : toolbox.Sound False
  total : toolbox.load (fun _ => true) ≤ toolbox.policy.cap parallelLimit
  branch : forall branch, toolbox.load (takesSlot branch) ≤ toolbox.policy.kFor branch

theorem policy_step {op : ToolboxOp} (hop : forall policy, op ≠ .setPolicy policy)
    (hstep : toolbox.step op = some next) : next.policy = toolbox.policy := by
  cases moves_of_step hstep with
  | setPolicy policy => exact absurd rfl (hop policy)
  | test hfind hlife =>
    unfold RealToolbox.moved
    split
    · rfl
    · exact policy_arrived _
  | _ => rfl

theorem Within.take (h : toolbox.Within limit) (hkept : toolbox.callsKept = true)
    (hstep : toolbox.step (.take limit) = some next) (hsound : next.Sound False) :
    next.Within limit := by
  have hpolicy : next.policy = toolbox.policy := policy_step (by intro policy hop; cases hop) hstep
  refine ⟨hsound, ?_, ?_⟩
  · rw [hpolicy]
    refine h.sound.load_take_le hkept h.total ?_ hstep
    intro item htake _
    unfold runningOf
    rw [List.filter_true]
    exact (take_eq_some htake).right.right.left
  · intro branch
    rw [hpolicy]
    refine h.sound.load_take_le hkept (h.branch branch) ?_ hstep
    intro item htake hcounts
    have hslot := hcounts
    unfold takesSlot at hslot
    rw [Bool.and_eq_true, decide_eq_true_eq, Bool.not_eq_true'] at hslot
    rcases (take_eq_some htake).right.right.right with hexempt | hfree
    · cases hslot.right.symm.trans hexempt
    · have hbranch : item.branch = branch := hslot.left
      rw [hbranch] at hfree
      exact hfree

theorem Within.step (h : toolbox.Within limit) {op : ToolboxOp}
    (hpaced : Paced limit toolbox op) (hstep : toolbox.step op = some next) :
    next.Within limit := by
  have hsound : next.Sound False := h.sound.step (fun hfalse => hfalse.elim) hstep
  cases op with
  | take other =>
    rcases hpaced.left with rfl
    exact h.take (hpaced.right rfl) hstep hsound
  | setPolicy policy => exact absurd hpaced.left id
  | _ =>
    have hpolicy : next.policy = toolbox.policy :=
      policy_step (by intro policy hop; cases hop) hstep
    have hload : forall counts, next.load counts ≤ toolbox.load counts :=
      fun counts => h.sound.load_step_le (by intro limit hop; cases hop) hstep
    refine ⟨hsound, ?_, ?_⟩
    · rw [hpolicy]
      exact Nat.le_trans (hload _) h.total
    · intro branch
      rw [hpolicy]
      exact Nat.le_trans (hload _) (h.branch branch)

theorem executingOf_le (toolbox : RealToolbox) (counts : TestRequest -> Bool) :
    (toolbox.executing.filter fun test =>
      test.life.accepted.any counts).length ≤ toolbox.load counts := by
  unfold executing load weigh
  rw [List.filter_filter, ← Table.total_toNat]
  apply Table.total_le_total
  intro test _
  apply Bool.toNat_le_toNat
  unfold Life.counted
  cases hin : test.life.memory.inExecutor with
  | false =>
    rw [Bool.and_false]
    exact Bool.false_le _
  | true =>
    rw [Bool.and_true, Memory.mayExecute_of_inExecutor hin, Bool.true_and]

theorem Sound.executing_le (h : toolbox.Sound orderly) :
    toolbox.executing.length ≤ toolbox.load fun _ => true := by
  have hall : (toolbox.executing.filter fun test =>
      test.life.accepted.any fun _ => true) = toolbox.executing := by
    apply List.filter_eq_self.mpr
    intro test htest
    rcases (h test (List.mem_of_mem_filter htest)).named with ⟨request, haccepted, _⟩
    rw [haccepted]
    rfl
  rw [← hall]
  exact executingOf_le toolbox fun _ => true

theorem within_of_reachable (h : toolboxMachine.ReachableWhere (Paced limit) toolbox) :
    toolbox.Within limit := by
  refine h.invariant (I := fun toolbox => toolbox.Within limit) ?_ ?_
  · intro start hstart
    have hempty : forall counts, start.load counts = 0 := by
      intro counts
      unfold load weigh
      rw [hstart.right]
      rfl
    refine ⟨?_, ?_, ?_⟩
    · intro test htest
      rw [hstart.right] at htest
      exact absurd htest (Table.not_mem_empty test)
    · rw [hempty]
      exact Nat.zero_le _
    · intro branch
      rw [hempty]
      exact Nat.zero_le _
  · intro toolbox op next hwithin hpaced hstep
    exact hwithin.step hpaced hstep

end

end RealToolbox

/-- Under a fixed policy and limit, and where no test is taken while a withdrawn
one is still in its executor call, the executor calls under way are within the
concurrency and, branch by branch, within K. -/
theorem executions_within_limits {parallelLimit : Option PNat} {toolbox : RealToolbox}
    (h : toolboxMachine.ReachableWhere (RealToolbox.Paced parallelLimit) toolbox) :
    toolbox.executing.length ≤ toolbox.policy.cap parallelLimit ∧
      forall branch, (toolbox.executingCounted branch).length ≤ toolbox.policy.kFor branch := by
  have hwithin := RealToolbox.within_of_reachable h
  constructor
  · exact Nat.le_trans hwithin.sound.executing_le hwithin.total
  · intro branch
    exact Nat.le_trans (toolbox.executingOf_le (RealToolbox.takesSlot branch))
      (hwithin.branch branch)

namespace ToolboxExample

def narrow : RealToolbox :=
  { start with policy := { policy with
      globalConcurrency := 1
      globalConcurrency_pos := by decide } }

def afterTheCall : List ToolboxOp :=
  up ++ published "r1" "b1" ++ taken "r1" ++ [.test "r1" (.withdraw "cancelled by the submitter"),
    .test "r1" .runCancelled] ++ published "r2" "b1" ++ taken "r2"

def duringTheCall : List ToolboxOp :=
  up ++ published "r1" "b1" ++ taken "r1" ++
  [.test "r1" (.withdraw "cancelled by the submitter")] ++ published "r2" "b1" ++ taken "r2"

end ToolboxExample

theorem executions_within_limits_after_withdrawal :
    exists toolbox, toolboxMachine.ReachableWhere (RealToolbox.Paced none) toolbox ∧
      toolbox.executing.map Test.requestId = ["r2"] ∧
      toolbox.executing.length ≤ toolbox.policy.cap none ∧
      forall branch, (toolbox.executingCounted branch).length ≤ toolbox.policy.kFor branch := by
  rcases Machine.ReachableWhere.exists_of_runIf (M := toolboxMachine) (C := RealToolbox.Paced none)
      (P := fun toolbox => toolbox.executing.map Test.requestId = ["r2"])
      ToolboxExample.narrow ToolboxExample.afterTheCall ⟨rfl, rfl⟩
      (by decide +kernel) with ⟨toolbox, hreachable, hexecuting⟩
  exact ⟨toolbox, hreachable, hexecuting, executions_within_limits hreachable⟩

/-- With a concurrency of 1 two tests are in the executor. -/
theorem executions_beyond_limit :
    exists toolbox, toolboxMachine.ReachableWhere (RealToolbox.Fixed none) toolbox ∧
      toolbox.executing.map Test.requestId = ["r1", "r2"] ∧
      toolbox.policy.cap none = 1 :=
  Machine.ReachableWhere.exists_of_runIf (C := RealToolbox.Fixed none)
    ToolboxExample.narrow ToolboxExample.duringTheCall ⟨rfl, rfl⟩ (by decide +kernel)

end Toolbox
end Hyperloom
