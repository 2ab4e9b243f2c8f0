import Hyperloom.Library.Table
import Hyperloom.Toolbox.TestStage

/-!
# The toolbox

All tests of one submit log under one toolbox process after the other: a
process goes over the log, serves submits and withdrawals, takes tests from
its queue and may be gone at any time.  The queue is what the process's memory
of the tests holds of it.  The policy of a process that is not up is the one
the next process starts with.
-/

namespace Hyperloom
namespace Toolbox

open Blackboard Library

structure Test where
  requestId : String
  life : Life
deriving DecidableEq

structure RealToolbox extends Process where
  tests : Table Test Test.requestId := Table.empty

inductive ToolboxOp where
  | restart
  | crash
  | started
  | setPolicy (policy : QueuePolicy)
  | submit (request : TestRequest) (sequence : Nat) (now : Rat)
  | take (parallelLimit : Option PNat)
  | test (requestId : String) (op : LifeOp)

namespace RealToolbox

variable (toolbox : RealToolbox)

def items : List QueuedTest :=
  toolbox.tests.rows.filterMap fun test => test.life.memory.item

def withLives (f : Life -> Life) : RealToolbox :=
  { toolbox with
    tests := toolbox.tests.updateWhere (fun _ => true)
      (fun test => { test with life := f test.life }) (fun _ => rfl) }

def update (requestId : String) (life : Life) : RealToolbox :=
  { toolbox with
    tests := toolbox.tests.updateKey requestId
      (fun test => { test with life := life }) (fun _ => rfl) }

def stopped : RealToolbox :=
  { toolbox.withLives Life.lost with mode := .down }

/-- No publish is under way: each holds the lock of `submit_test`. -/
def unlocked : Bool :=
  toolbox.tests.rows.all fun test => test.life.memory.publishing.isNone

def recovered : Bool :=
  toolbox.tests.rows.all fun test => !test.life.memory.toRecover

/-- Whether a step raises out of `recover`: `prepare` did, or the publish did
and aborted the entry. -/
def raises (life next : Life) : LifeOp -> Bool
  | .recoverPrepare .raised => true
  | _ => next.entry.aborted && !life.entry.aborted

/-- The queue counts an arrival for each test it is given. -/
def arrived : LifeOp -> RealToolbox
  | .publishAttach (.attached _) =>
    { toolbox with arrivals := toolbox.arrivals + 1 }
  | _ => toolbox

def moved (requestId : String) (life next : Life) (op : LifeOp) : RealToolbox :=
  if toolbox.mode = .recovering ∧ raises life next op then
    (toolbox.update requestId next).stopped
  else (toolbox.update requestId next).arrived op

def step : ToolboxOp -> Option RealToolbox
  | .restart =>
    if toolbox.mode = .down then
      some { toolbox.withLives Life.restarted with mode := .recovering, arrivals := 0 }
    else none
  | .crash => if toolbox.mode = .down then none else some toolbox.stopped
  | .started =>
    if toolbox.mode = .recovering ∧ toolbox.recovered ∧ toolbox.unlocked then
      some { toolbox with mode := .running }
    else none
  | .setPolicy policy =>
    some { toolbox.withLives (Life.reprioritised policy) with policy := policy }
  | .submit request sequence now =>
    if toolbox.mode = .running ∧ toolbox.unlocked then
      match toolbox.tests.insertNew {
          requestId := request.requestId
          life := Life.submitted toolbox.policy request sequence now } with
      | none => none
      | some tests => some { toolbox with tests := tests }
    else none
  | .take parallelLimit =>
    if toolbox.mode = .down then none
    else
      match Toolbox.take toolbox.policy parallelLimit toolbox.items with
      | none => none
      | some item =>
        match toolbox.tests.find? item.requestId with
        | none => none
        | some test =>
          some (toolbox.update item.requestId test.life.started)
  | .test requestId op =>
    match toolbox.tests.find? requestId with
    | none => none
    | some test =>
      match test.life.step requestId toolbox.toProcess op with
      | none => none
      | some next => some (toolbox.moved requestId test.life next op)

end RealToolbox

def toolboxMachine : Machine RealToolbox ToolboxOp where
  init toolbox := toolbox.mode = .down ∧ toolbox.tests = Table.empty
  step := RealToolbox.step

namespace RealToolbox

/-!
## What a step does
-/

inductive Moves (toolbox : RealToolbox) : ToolboxOp -> RealToolbox -> Prop where
  | restart (hdown : toolbox.mode = .down) :
    Moves toolbox .restart { toolbox.withLives Life.restarted with
      mode := .recovering
      arrivals := 0 }
  | crash : Moves toolbox .crash toolbox.stopped
  | started (hmode : toolbox.mode = .recovering) (hrecovered : toolbox.recovered = true) :
    Moves toolbox .started { toolbox with mode := .running }
  | setPolicy (policy : QueuePolicy) :
    Moves toolbox (.setPolicy policy)
      { toolbox.withLives (Life.reprioritised policy) with policy := policy }
  | submit {request : TestRequest} {sequence : Nat} {now : Rat}
    {tests : Table Test Test.requestId} (hmode : toolbox.mode = .running)
    (hnew : toolbox.tests.insertNew {
      requestId := request.requestId
      life := Life.submitted toolbox.policy request sequence now } = some tests) :
    Moves toolbox (.submit request sequence now) { toolbox with tests := tests }
  | take {limit : Option PNat} {item : QueuedTest} {test : Test}
    (htake : Toolbox.take toolbox.policy limit toolbox.items = some item)
    (hfind : toolbox.tests.find? item.requestId = some test) :
    Moves toolbox (.take limit) (toolbox.update item.requestId test.life.started)
  | test {requestId : String} {op : LifeOp} {test : Test} {life : Life}
    (hfind : toolbox.tests.find? requestId = some test)
    (hlife : test.life.step requestId toolbox.toProcess op = some life) :
    Moves toolbox (.test requestId op) (toolbox.moved requestId test.life life op)

variable {next : RealToolbox} {tests : Table Test Test.requestId}

theorem moves_of_step {toolbox : RealToolbox} {op : ToolboxOp}
    (hstep : toolbox.step op = some next) : toolbox.Moves op next := by
  revert hstep
  fun_cases step toolbox op with (intro hstep; cases hstep)
  | case1 hdown => exact .restart hdown
  | case4 => exact .crash
  | case5 hready => exact .started hready.left hready.right.left
  | case7 policy => exact .setPolicy policy
  | case9 request sequence now hready tests hnew => exact .submit hready.left hnew
  | case14 limit _ item htake test hfind => exact .take htake hfind
  | case17 requestId op test hfind life hlife => exact .test hfind hlife

/-!
## Every test of a toolbox
-/

def Each (toolbox : RealToolbox) (P : String -> Life -> Prop) : Prop :=
  forall test, test ∈ toolbox.tests -> P test.requestId test.life

variable {test : Test} {requestId : String} {op : LifeOp}

section

variable {toolbox : RealToolbox} {P Q : String -> Life -> Prop}

section

variable (h : toolbox.Each P)

include h

theorem Each.withLives {f : Life -> Life}
    (hf : forall requestId life, P requestId life -> Q requestId (f life)) :
    (toolbox.withLives f).Each Q := by
  intro test htest
  unfold RealToolbox.withLives at htest
  rw [Table.mem_updateWhere] at htest
  rcases htest with ⟨_, hfalse⟩ | ⟨old, hold, _, rfl⟩
  · cases hfalse
  exact hf old.requestId old.life (h old hold)

theorem Each.update {life : Life}
    (hlife : P requestId life) : (toolbox.update requestId life).Each P := by
  intro test htest
  unfold RealToolbox.update Table.updateKey at htest
  rw [Table.mem_updateWhere] at htest
  rcases htest with ⟨hold, _⟩ | ⟨old, _, hkey, rfl⟩
  · exact h test hold
  · have hid : old.requestId = requestId := of_decide_eq_true hkey
    rw [hid]
    exact hlife

theorem Each.insertNew (hnew : toolbox.tests.insertNew test = some tests)
    (htest : P test.requestId test.life) : Each { toolbox with tests := tests } P := by
  intro other hother
  rcases (Table.mem_insertNew hnew).mp hother with rfl | hold
  · exact htest
  · exact h other hold

theorem Each.find (hfind : toolbox.tests.find? requestId = some test) : P requestId test.life := by
  rcases Table.find?_eq_some.mp hfind with ⟨hmem, rfl⟩
  exact h test hmem

theorem Each.mono (himp : forall requestId life, P requestId life -> Q requestId life) :
    toolbox.Each Q := by
  intro test htest
  exact himp _ _ (h test htest)

theorem Each.arrived : (toolbox.arrived op).Each P := by
  unfold RealToolbox.arrived
  split
  · exact h
  · exact h

end

theorem mode_arrived (op : LifeOp) : (toolbox.arrived op).mode = toolbox.mode := by
  unfold RealToolbox.arrived
  split
  · rfl
  · rfl

end

/-!
## Weights of tests
-/

def weigh (toolbox : RealToolbox) (weight : Life -> Nat) : Nat :=
  toolbox.tests.total fun test => weight test.life

section

variable {toolbox : RealToolbox} {weight : Life -> Nat}

theorem weigh_withLives_le (weight : Life -> Nat) (f : Life -> Life)
    (hf : forall life, weight (f life) ≤ weight life) :
    (toolbox.withLives f).weigh weight ≤ toolbox.weigh weight := by
  unfold weigh RealToolbox.withLives
  rw [Table.total_updateWhere]
  apply Table.total_le_total
  intro test _
  exact hf test.life

theorem weigh_update (hfind : toolbox.tests.find? requestId = some test)
    (life : Life) (weight : Life -> Nat) :
    (toolbox.update requestId life).weigh weight + weight test.life =
      toolbox.weigh weight + weight life := by
  rcases Table.find?_eq_some.mp hfind with ⟨hmem, hkey⟩
  exact Table.total_updateKey (f := fun test => { test with life := life })
    (fun _ => rfl) hmem hkey fun test => weight test.life

theorem weigh_insertNew (h : toolbox.tests.insertNew test = some tests) (weight : Life -> Nat) :
    weigh { toolbox with tests := tests } weight = toolbox.weigh weight + weight test.life :=
  Table.total_insertNew h fun test => weight test.life

theorem weigh_arrived (op : LifeOp) : (toolbox.arrived op).weigh weight = toolbox.weigh weight := by
  unfold RealToolbox.arrived
  split
  · rfl
  · rfl

end

/-!
## The memory of every test is that of a stage
-/

def Sound (toolbox : RealToolbox) (orderly : Prop) : Prop :=
  toolbox.Each fun requestId life => life.Sound requestId toolbox.mode orderly

section

variable {toolbox next : RealToolbox} {orderly : Prop}

section

variable (h : toolbox.Sound orderly)

include h

theorem Sound.stopped : toolbox.stopped.Sound orderly :=
  Each.withLives h fun _ _ hlife => hlife.lost

theorem Sound.arrived : (toolbox.arrived op).Sound orderly := by
  unfold RealToolbox.Sound
  rw [mode_arrived]
  exact Each.arrived h

theorem Sound.owner_of_mem {item : QueuedTest} (hmem : item ∈ toolbox.items) :
    exists test, toolbox.tests.find? item.requestId = some test ∧
      test.life.memory.item = some item := by
  rcases List.mem_filterMap.mp hmem with ⟨owner, howner, hitem⟩
  have hid : owner.requestId = item.requestId := by
    rcases (h owner howner).named with ⟨request, haccepted, hid⟩
    cases haccepted.symm.trans ((h owner howner).accepted_of_item hitem)
    exact hid.symm
  exact ⟨owner, Table.find?_eq_some.mpr ⟨howner, hid⟩, hitem⟩

theorem Sound.item_of_take {parallelLimit : Option PNat} {item : QueuedTest}
    (htake : Toolbox.take toolbox.policy parallelLimit toolbox.items =
      some item) (hfind : toolbox.tests.find? item.requestId = some test) :
    test.life.memory.item = some item := by
  rcases h.owner_of_mem (take_eq_some htake).left with ⟨owner, hsame, hitem⟩
  cases hfind.symm.trans hsame
  exact hitem

theorem Sound.step {op : ToolboxOp}
    (horderly : orderly -> forall requestId inner test, op = .test requestId inner ->
      toolbox.tests.find? requestId = some test -> test.life.inOrder inner = true)
    (hstep : toolbox.step op = some next) : next.Sound orderly := by
  cases moves_of_step hstep with
  | restart hdown =>
    show (toolbox.withLives Life.restarted).Each fun requestId life =>
      life.Sound requestId .recovering orderly
    refine Each.withLives h ?_
    intro requestId life hlife
    rw [hdown] at hlife
    exact hlife.restarted
  | crash => exact h.stopped
  | started hmode hrecovered =>
    intro test htest
    have hlife := h test htest
    rw [hmode] at hlife
    have hback := List.all_eq_true.mp hrecovered test htest
    exact hlife.running (Bool.not_eq_true' _ ▸ hback)
  | setPolicy policy =>
    exact Each.withLives h fun _ _ hlife => hlife.reprioritised policy
  | submit hmode hnew =>
    apply Each.insertNew h hnew
    rw [hmode]
    exact Life.sound_submitted _ _ _ _
  | take htake hfind =>
    apply Each.update h
    exact (Each.find h hfind).started (h.item_of_take htake hfind) (take_eq_some htake).right.left
  | test hfind hlife =>
    have hadvance := Life.step_advances (Each.find h hfind)
      (fun ho => horderly ho _ _ _ rfl hfind) hlife
    have hupdated := Each.update h hadvance.sound
    unfold RealToolbox.moved
    split
    · exact Sound.stopped hupdated
    · exact Sound.arrived hupdated

end

end

/-!
## What holds of the log and the rows of every test

The processes and their queues only change the memory of a test, so a property
of its log entry and rows is kept as soon as every change of one test keeps it.
-/

variable (condition : Life -> LifeOp -> Bool) (toolbox : RealToolbox)

/-- The steps of a toolbox whose steps of one test meet a condition. -/
def Where : ToolboxOp -> Prop
  | .test requestId op =>
    (toolbox.tests.find? requestId).all (fun test => condition test.life op) = true
  | _ => True

instance (op : ToolboxOp) : Decidable (Where condition toolbox op) := by
  unfold Where
  split
  · infer_instance
  · infer_instance

section

variable {condition : Life -> LifeOp -> Bool} {orderly : Prop} {toolbox : RealToolbox}

theorem Where.holds (h : Where condition toolbox (.test requestId op))
    (hfind : toolbox.tests.find? requestId = some test) : condition test.life op = true := by
  simp only [Where, hfind] at h
  exact h

theorem Sound.step_where {op : ToolboxOp}
    (hcondition : orderly -> forall life op, condition life op = true -> life.inOrder op = true)
    (h : toolbox.Sound orderly) (hwhere : Where condition toolbox op)
    (hstep : toolbox.step op = some next) : next.Sound orderly := by
  apply h.step _ hstep
  intro ho requestId inner test hop hfind
  subst hop
  exact hcondition ho test.life inner (Where.holds hwhere hfind)

theorem sound_of_reachable (orderly : Prop)
    (hcondition : orderly -> forall life op, condition life op = true -> life.inOrder op = true)
    (h : toolboxMachine.ReachableWhere (Where condition) toolbox) : toolbox.Sound orderly := by
  refine h.invariant (I := fun toolbox => toolbox.Sound orderly) ?_ ?_
  · intro start hstart test htest
    rw [hstart.right] at htest
    exact absurd htest (Table.not_mem_empty test)
  · intro toolbox op next hsound hwhere hstep
    exact hsound.step_where hcondition hwhere hstep

variable {P : String -> Life -> Prop}

/-- Every change of one test keeps `P`. -/
structure Lasts (P : String -> Life -> Prop) (condition : Life -> LifeOp -> Bool)
    (orderly : Prop) : Prop where
  memory : forall requestId life memory, P requestId life ->
    P requestId { life with memory := memory }
  submitted : forall policy request sequence now,
    P request.requestId (Life.submitted policy request sequence now)
  change : forall requestId mode op life next,
    life.Sound requestId mode orderly -> P requestId life -> condition life op = true ->
    Life.Change requestId orderly life op next -> P requestId next
  inOrder : orderly -> forall life op, condition life op = true -> life.inOrder op = true

theorem Each.step {op : ToolboxOp} (hkept : Lasts P condition orderly)
    (hsound : toolbox.Sound orderly) (h : toolbox.Each P) (hwhere : Where condition toolbox op)
    (hstep : toolbox.step op = some next) : next.Each P := by
  have hlives : forall {toolbox : RealToolbox} {f : Life -> Life},
      toolbox.Each P -> (forall life, exists memory, f life = { life with memory := memory }) ->
      (toolbox.withLives f).Each P := by
    intro toolbox f h hf
    refine Each.withLives h ?_
    intro requestId life hlife
    rcases hf life with ⟨memory, heq⟩
    rw [heq]
    exact hkept.memory requestId life memory hlife
  have hstopped : forall {toolbox : RealToolbox}, toolbox.Each P -> toolbox.stopped.Each P :=
    fun h => hlives h fun life => ⟨{}, rfl⟩
  cases moves_of_step hstep with
  | restart hdown =>
    refine hlives h fun life => ?_
    unfold Life.restarted
    split
    · exact ⟨life.memory, rfl⟩
    · exact ⟨_, rfl⟩
  | crash => exact hstopped h
  | started hmode hrecovered => exact h
  | setPolicy policy => exact hlives h fun life => ⟨_, rfl⟩
  | submit hmode hnew => exact Each.insertNew h hnew (hkept.submitted _ _ _ _)
  | take htake hfind =>
    exact Each.update h (hkept.memory _ _ _ (Each.find h hfind))
  | test hfind hlife =>
    have hcond := Where.holds hwhere hfind
    have hadvance := Life.step_advances (Each.find hsound hfind)
      (fun ho => hkept.inOrder ho _ _ hcond) hlife
    have hupdated := Each.update h (hkept.change _ toolbox.mode _ _ _
      (Each.find hsound hfind) (Each.find h hfind) hcond hadvance.change)
    unfold RealToolbox.moved
    split
    · exact hstopped hupdated
    · exact hupdated.arrived

theorem each_of_reachable (orderly : Prop) (hkept : Lasts P condition orderly)
    (h : toolboxMachine.ReachableWhere (Where condition) toolbox) : toolbox.Each P := by
  have hboth : toolbox.Sound orderly ∧ toolbox.Each P := by
    refine h.invariant (I := fun toolbox => toolbox.Sound orderly ∧ toolbox.Each P) ?_ ?_
    · intro start hstart
      have hempty : forall Q, start.Each Q := by
        intro Q test htest
        rw [hstart.right] at htest
        exact absurd htest (Table.not_mem_empty test)
      exact ⟨hempty _, hempty _⟩
    · intro toolbox op next hinv hwhere hstep
      exact ⟨hinv.left.step_where hkept.inOrder hwhere hstep,
        hinv.right.step hkept hinv.left hwhere hstep⟩
  exact hboth.right

end

end RealToolbox

/-!
## A toolbox with default limits
-/

namespace ToolboxExample

def policy : QueuePolicy where
  perBranchK_pos := by decide
  globalConcurrency_pos := by decide
  branchK_pos := by
    intro branch k h
    cases h

def start : RealToolbox where
  mode := .down
  policy := policy

variable (requestId branch : String)

def request (intent : Option String) : TestRequest where
  requestId := requestId
  kind := .test
  purpose := .explore
  branch := branch
  parentCommit := "c0"
  actionFingerprint := "action"
  intentFingerprint := intent

def up : List ToolboxOp := [.restart, .started]

def published : List ToolboxOp :=
  [.submit (request requestId branch none) 1 0, .test requestId (.publishRow .done),
    .test requestId (.publishAttach (.attached false))]

def taken (requestId : String) : List ToolboxOp := [.take none, .test requestId .beginRun]

end ToolboxExample

end Toolbox
end Hyperloom
