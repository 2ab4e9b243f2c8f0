import Hyperloom.Library.Machine
import Hyperloom.Loop.SubAgentRunner

/-!
# Dispatching one queued task twice

Several dispatches of one queued row, each an `acquire_many` under the task's
own id followed by `run_task`, interleave in any order.  They share their lane
rows, because `acquire_many` refreshes the rows its holder already has; only
one of them can claim the row.
-/

namespace Hyperloom
namespace Loop

open Library Storage Bus State

/-!
## The machine
-/

/-- What a dispatch is answered whenever it asks: by the policy gate, and by
its `release_resources`. -/
structure Plan where
  policy : PolicyAnswer
  cleanup : Cleanup
deriving DecidableEq

def Plan.Allows (plan : Plan) : Answer -> Prop
  | .policy answer => answer = plan.policy
  | .resources cleanup => cleanup = plan.cleanup
  | _ => True

instance (plan : Plan) (answer : Answer) : Decidable (plan.Allows answer) :=
  match answer with
  | .policy answer => inferInstanceAs (Decidable (answer = plan.policy))
  | .resources cleanup => inferInstanceAs (Decidable (cleanup = plan.cleanup))
  | .claim _ _ => isTrue trivial
  | .lookup _ => isTrue trivial
  | .executor _ => isTrue trivial
  | .terminal _ _ => isTrue trivial
  | .completion _ _ => isTrue trivial
  | .lanes _ => isTrue trivial

/-- A dispatch that has not asked for its lanes, was refused them, or runs. -/
inductive Dispatch where
  | waiting
  | refused
  | running (x : Exec)

structure SpawnState (ι : Type) where
  db : Db
  dispatch : ι -> Dispatch

def SpawnState.execOf {ι : Type} (s : SpawnState ι) (i : ι) : Option Exec :=
  match s.dispatch i with
  | .running x => some x
  | _ => none

inductive SpawnOp (ι : Type) where
  | acquire (i : ι) (acquirer : Acquirer)
  | step (i : ι) (answer : Answer)

section

variable {ι : Type} [DecidableEq ι]

def SpawnState.set (s : SpawnState ι) (db : Db) (i : ι) (dispatch : Dispatch) : SpawnState ι where
  db := db
  dispatch := Function.update s.dispatch i dispatch

variable (capacities : Capacities)

def spawnStep (task : TaskRow) (plan : ι -> Plan)
    (s : SpawnState ι) : SpawnOp ι -> Option (SpawnState ι)
  | .acquire i acquirer =>
    match s.dispatch i with
    | .waiting =>
      if task.requiresLanes = [] then
        some (s.set s.db i (.running { task := task, lease := none }))
      else
        match acquireMany capacities s.db.leases (acquireRequest task) acquirer with
        | .ok (some lease, leases) =>
          some (s.set { s.db with leases := leases } i
            (.running { task := task, lease := some lease }))
        | _ => some (s.set s.db i .refused)
    | _ => none
  | .step i answer =>
    match s.dispatch i with
    | .running x =>
      if (plan i).Allows answer then
        (runStep s.db x answer).map (fun next => s.set next.fst i (.running next.snd))
      else none
    | _ => none

def spawnMachine (task : TaskRow) (plan : ι -> Plan) : Machine (SpawnState ι) (SpawnOp ι) where
  init s := task ∈ s.db.tasks ∧ task.state = .queued ∧ forall i, s.dispatch i = .waiting
  step := spawnStep capacities task plan

inductive SpawnEffect (capacities : Capacities) (task : TaskRow)
    (plan : ι -> Plan) (s : SpawnState ι) : SpawnState ι -> Prop where
  | laneless (i : ι) : s.dispatch i = .waiting ->
    SpawnEffect capacities task plan s (s.set s.db i (.running { task := task, lease := none }))
  | acquired (i : ι) (acquirer : Acquirer) (lease : Lease) (leases : Leases) :
    s.dispatch i = .waiting ->
    acquireMany capacities s.db.leases (acquireRequest task) acquirer = .ok (some lease, leases) ->
    SpawnEffect capacities task plan s
      (s.set { s.db with leases := leases } i (.running { task := task, lease := some lease }))
  | refused (i : ι) : s.dispatch i = .waiting ->
    SpawnEffect capacities task plan s (s.set s.db i .refused)
  | stepped (i : ι) (x x' : Exec) (db' : Db) (answer : Answer) :
    s.dispatch i = .running x -> (plan i).Allows answer -> RunEffect s.db x answer db' x' ->
    SpawnEffect capacities task plan s (s.set db' i (.running x'))

variable {s : SpawnState ι} {task : TaskRow}

theorem spawnStep_effect {capacities : Capacities} {plan : ι -> Plan}
    {t : SpawnState ι} {op : SpawnOp ι} (h : spawnStep capacities task plan s op = some t) :
    SpawnEffect capacities task plan s t := by
  revert h
  fun_cases spawnStep capacities task plan s op with (intro h; try cases h)
  | case1 i acquirer hwaiting => exact SpawnEffect.laneless i hwaiting
  | case2 i acquirer hwaiting _ lease leases hacquired =>
    exact SpawnEffect.acquired i acquirer lease leases hwaiting hacquired
  | case3 i acquirer hwaiting => exact SpawnEffect.refused i hwaiting
  | case5 i answer x hx hallows =>
    rcases Option.map_eq_some_iff.mp h with ⟨next, hnext, rfl⟩
    exact SpawnEffect.stepped i x next.snd next.fst answer hx hallows (runStep_effect hnext)

/-!
## What one dispatch does under its plan
-/

/-- Where a dispatch may stand that has not claimed the row and will not give
its lanes back. -/
def Idle : Pc -> Prop
  | .policy => True
  | .claim => True
  | .resources none => True
  | .raised _ => True
  | _ => False

/-- A dispatch the policy gate does not deny and whose cleanup stays
unconfirmed. -/
structure Plan.Spares (plan : Plan) : Prop where
  undenied : forall denial, plan.policy ≠ .denied denial
  unconfirmed : plan.cleanup.verdict ≠ .confirmed

/-- A dispatch claims only when admitted; a sparing one touches no lane before
it has claimed. -/
structure FollowsPlan (plan : Plan) (x : Exec) : Prop where
  admitted : x.pc = .claim ∨ x.claimed = true -> plan.policy = .admitted
  idle : plan.Spares -> x.claimed = true ∨ (x.released = false ∧ Idle x.pc)

variable {plan : Plan} {x : Exec} {answer : Answer}

theorem Moves.claim_admitted {pc : Pc} (h : Moves x pc answer .claim)
    (hallows : plan.Allows answer) : plan.policy = .admitted := by
  generalize hclaim : Pc.claim = pc' at h
  cases h with
  | admitted => exact hallows.symm
  | ended ending =>
    unfold endingPc at hclaim
    split at hclaim <;> cases hclaim
  | cleaned executed cleanup =>
    rcases settling_resourcesPc x executed cleanup.verdict with hlate | hwrite
    · rw [← hclaim] at hlate
      exact absurd hlate id
    · rcases hwrite with ⟨_, _, _, hwrite⟩
      cases hclaim.trans hwrite
  | _ => cases hclaim

theorem Moves.idle {pc pc' : Pc} (h : Moves x pc answer pc')
    (hallows : plan.Allows answer) (hspares : plan.Spares) (hidle : Idle pc) : Idle pc' := by
  cases h with
  | denied denial =>
    exact absurd hallows.symm (hspares.undenied denial)
  | cleaned executed cleanup =>
    cases executed with
    | some executed => exact absurd hidle id
    | none =>
      have hcleanup : cleanup = plan.cleanup := hallows
      rw [hcleanup]
      cases hverdict : plan.cleanup.verdict with
      | confirmed => exact absurd hverdict hspares.unconfirmed
      | unconfirmed error =>
        show Idle (finish none (.unconfirmed error))
        unfold finish
        split
        · rename_i hsame
          cases hsame
        · exact trivial
        · exact trivial
        · exact trivial
  | admitted | refused answer | unclaimed now db | claimCancelled now db => exact trivial
  | _ => exact absurd hidle id

variable {db db' : Db} {x' : Exec}

theorem followsPlan_step (h : FollowsPlan plan x) (hallows : plan.Allows answer)
    (heffect : RunEffect db x answer db' x') : FollowsPlan plan x' := by
  have hclaimed : x.claimed = true -> plan.policy = .admitted :=
    fun hclaimed => h.admitted (Or.inr hclaimed)
  -- a step other than a claim keeps the claim it finds
  have hlate : forall pc : Pc, Late pc -> pc = .claim ∨ x.claimed = true ->
      plan.policy = .admitted := by
    intro pc hpc hcase
    rcases hcase with rfl | hold
    · exact absurd hpc id
    · exact hclaimed hold
  have hbusy : ¬ Idle x.pc -> forall {released : Bool} {pc : Pc},
      plan.Spares -> x.claimed = true ∨ (released = false ∧ Idle pc) := by
    intro hpc _ _ hspares
    rcases h.idle hspares with hold | ⟨_, hidle⟩
    · exact Or.inl hold
    · exact absurd hidle hpc
  cases heffect with
  | moved answer pc hmoves =>
    constructor
    · intro hcase
      rcases hcase with hclaim | hold
      · have hpc : pc = .claim := hclaim
        rw [hpc] at hmoves
        exact hmoves.claim_admitted hallows
      · exact hclaimed hold
    · intro hspares
      rcases h.idle hspares with hold | ⟨hreleased, hidle⟩
      · exact Or.inl hold
      · exact Or.inr ⟨hreleased, hmoves.idle hallows hspares hidle⟩
  | claims now answer tasks pc hpc hok hnext =>
    exact ⟨fun _ => h.admitted (Or.inl hpc), fun _ => Or.inl rfl⟩
  | invokes hpc =>
    constructor
    · intro hcase
      rcases hcase with hclaim | hold
      · cases hclaim
      · exact hclaimed hold
    · exact hbusy (by rw [hpc]; exact id)
  | writes outcome evidence verdict now answer tasks pc hpc hok hnext
  | appends outcome evidence verdict now answer tasks pc hpc hok hnext =>
    constructor
    · exact hlate pc (late_of_settled hnext)
    · exact hbusy (by rw [hpc]; exact id)
  | releases lease outcome verdict answer pc hpc hnext =>
    constructor
    · exact hlate pc (late_of_finished hnext)
    · exact hbusy (by rw [hpc]; exact id)

/-!
## What all dispatches together keep
-/

def EachExec (P : ι -> Exec -> Prop) (s : SpawnState ι) : Prop :=
  forall i x, s.dispatch i = .running x -> P i x

@[simp] theorem set_dispatch_self (s : SpawnState ι) (db : Db) (i : ι)
    (dispatch : Dispatch) : (s.set db i dispatch).dispatch i = dispatch := by
  simp [SpawnState.set]

variable {dispatch : Dispatch}

theorem set_dispatch_of_ne {i j : ι} (h : j ≠ i) :
    (s.set db i dispatch).dispatch j = s.dispatch j := by
  simp [SpawnState.set, h]

theorem set_cases {i j : ι} {y : Exec} (h : (s.set db i dispatch).dispatch j = .running y) :
    (j = i ∧ dispatch = .running y) ∨ (j ≠ i ∧ s.dispatch j = .running y) := by
  by_cases hji : j = i
  · rw [hji, set_dispatch_self] at h
    exact Or.inl ⟨hji, h⟩
  · rw [set_dispatch_of_ne hji] at h
    exact Or.inr ⟨hji, h⟩

theorem eachExec_set {P : ι -> Exec -> Prop} {i : ι} (h : EachExec P s)
    (hnew : forall x, dispatch = .running x -> P i x) : EachExec P (s.set db i dispatch) := by
  intro j y hy
  rcases set_cases hy with ⟨rfl, hd⟩ | ⟨_, hold⟩
  · exact hnew y hd
  · exact h j y hold

omit [DecidableEq ι] in
theorem execOf_eq_some {i : ι} : s.execOf i = some x <-> s.dispatch i = .running x := by
  unfold SpawnState.execOf
  cases s.dispatch i with
  | _ => simp

/-- A dispatch is of the task, under its plan, and leases the task's lanes. -/
structure OfTask (task : TaskRow) (plan : Plan) (x : Exec) : Prop where
  task_eq : x.task = task
  first : ClaimsFirst x
  follows : FollowsPlan plan x
  lanes : forall lease, x.lease = some lease -> expandLanes task.requiresLanes = .ok lease.lanes

theorem ofTask_start {lease : Option Lease}
    (h : forall held, lease = some held -> expandLanes task.requiresLanes = .ok held.lanes) :
    OfTask task plan { task := task, lease := lease } where
  task_eq := rfl
  first := by
    constructor
    · nofun
    · nofun
  follows := by
    constructor
    · intro hcase
      rcases hcase with hpc | hclaimed
      · cases hpc
      · cases hclaimed
    · intro _
      exact Or.inr ⟨rfl, trivial⟩
  lanes := h

theorem ofTask_step (h : OfTask task plan x) (hallows : plan.Allows answer)
    (heffect : RunEffect db x answer db' x') : OfTask task plan x' where
  task_eq := heffect.task_eq.left.trans h.task_eq
  first := claimsFirst_step h.first heffect
  follows := followsPlan_step h.follows hallows heffect
  lanes := by
    rw [heffect.task_eq.right]
    exact h.lanes

section

variable {capacities : Capacities} {task : TaskRow} {plan : ι -> Plan} {s t : SpawnState ι}
  {lease : Lease} {leases after : Leases} {acquirer : Acquirer}

theorem expandLanes_of_acquired
    (h : acquireMany capacities leases (acquireRequest task) acquirer = .ok (some lease, after)) :
    expandLanes task.requiresLanes = .ok lease.lanes := by
  rcases acquireMany_cases h with ⟨hnone, _⟩ | ⟨expanded, hexpanded, hlease, _, _⟩
  · cases hnone
  · cases hlease
    exact hexpanded

theorem ofTask_effect (h : EachExec (fun i => OfTask task (plan i)) s)
    (heffect : SpawnEffect capacities task plan s t) :
    EachExec (fun i => OfTask task (plan i)) t := by
  cases heffect with
  | laneless i _ =>
    apply eachExec_set h
    intro x hx
    cases hx
    exact ofTask_start nofun
  | acquired i acquirer lease leases _ hacquired =>
    apply eachExec_set h
    intro x hx
    cases hx
    apply ofTask_start
    intro held hheld
    cases hheld
    exact expandLanes_of_acquired hacquired
  | refused i _ =>
    apply eachExec_set h
    intro x hx
    cases hx
  | stepped i x x' db' answer hx hallows hrun =>
    apply eachExec_set h
    intro y hy
    cases hy
    exact ofTask_step (h i x hx) hallows hrun

variable {i : ι} {db : Db} {dispatch : Dispatch} {x : Exec}

theorem claimedOnce_set (h : ClaimedOnce s.db.tasks s.execOf) (htasks : db.tasks = s.db.tasks)
    (hnew : forall x, dispatch = .running x -> x.claimed = false) :
    ClaimedOnce (s.set db i dispatch).db.tasks (s.set db i dispatch).execOf := by
  have hadvances : Advances s.db.tasks db.tasks := by
    rw [htasks]
    exact Advances.refl s.db.tasks
  apply h.of_old (fun _ _ _ => hadvances _)
  intro j y hy hclaimed
  rcases set_cases (execOf_eq_some.mp hy) with ⟨_, hd⟩ | ⟨_, hold⟩
  · rw [hnew y hd] at hclaimed
    cases hclaimed
  · exact ⟨y, execOf_eq_some.mpr hold, hclaimed, rfl⟩

theorem claimedOnce_effect (h : ClaimedOnce s.db.tasks s.execOf)
    (heffect : SpawnEffect capacities task plan s t) : ClaimedOnce t.db.tasks t.execOf := by
  cases heffect with
  | refused i _ =>
    apply claimedOnce_set h rfl
    intro x hx
    cases hx
  | stepped i x x' db' answer hx hallows hrun =>
    apply h.step (execOf_eq_some.mpr hx) hrun
    · exact execOf_eq_some.mpr (set_dispatch_self s db' i _)
    · intro j hji
      unfold SpawnState.execOf
      rw [set_dispatch_of_ne hji]
  | _ =>
    apply claimedOnce_set h rfl
    intro x hx
    cases hx
    rfl

/-!
## Lane rows
-/

def HoldsLanes (leases : Leases) (lease : Lease) : Prop :=
  forall lane, lane ∈ lease.lanes -> exists row, row ∈ leases ∧
    row.lane = .known lane ∧ row.holderId = lease.holderId

theorem holdsLanes_of_acquired {request : AcquireRequest}
    (h : acquireMany capacities leases request acquirer =
      .ok (some lease, after)) : HoldsLanes after lease := by
  rcases acquireMany_cases h with ⟨hnone, _⟩ | ⟨expanded, hexpanded, hlease, rfl, _⟩
  · cases hnone
  · cases hlease
    intro lane hlane
    refine ⟨acquiredRow request acquirer lane, ?_, rfl, rfl⟩
    exact (mem_acquired (expandLanes_nodup hexpanded)).mpr (Or.inl ⟨lane, hlane, rfl⟩)

/-- An acquire refreshes rows and takes none away. -/
theorem HoldsLanes.of_acquired {request : AcquireRequest} {held : Lease}
    (hheld : HoldsLanes leases held) (h : acquireMany capacities leases request acquirer =
      .ok (some lease, after)) : HoldsLanes after held := by
  rcases acquireMany_cases h with ⟨hnone, _⟩ | ⟨expanded, hexpanded, _, rfl, _⟩
  · cases hnone
  intro lane hlane
  rcases hheld lane hlane with ⟨row, hrow, hrowLane, hholder⟩
  by_cases hrefreshed : row.holderId = request.holderId ∧ lane ∈ expanded
  · refine ⟨acquiredRow request acquirer lane, ?_, rfl, hrefreshed.left.symm.trans hholder⟩
    exact (mem_acquired (expandLanes_nodup hexpanded)).mpr (Or.inl ⟨lane, hrefreshed.right, rfl⟩)
  · refine ⟨row, ?_, hrowLane, hholder⟩
    refine (mem_acquired (expandLanes_nodup hexpanded)).mpr (Or.inr ⟨hrow, ?_⟩)
    intro hsame other hother heq
    have hlanes : lane = other := by
      rw [hrowLane] at heq
      injection heq
    exact hrefreshed ⟨hsame, hlanes.symm ▸ hother⟩

def HeldUntilReleased (s : SpawnState ι) : Prop :=
  EachExec (fun _ x => x.released = false) s ->
    EachExec (fun _ x => forall lease, x.lease = some lease -> HoldsLanes s.db.leases lease) s

theorem eachExec_of_set {P : ι -> Exec -> Prop} (hwaiting : s.dispatch i = .waiting)
    (h : EachExec P (s.set db i dispatch)) : EachExec P s := by
  intro j y hy
  have hji : j ≠ i := by
    intro hji
    rw [hji, hwaiting] at hy
    cases hy
  exact h j y ((set_dispatch_of_ne hji).trans hy)

theorem heldUntilReleased_effect (h : HeldUntilReleased s)
    (heffect : SpawnEffect capacities task plan s t) : HeldUntilReleased t := by
  cases heffect with
  | laneless i hwaiting =>
    intro hnone
    apply eachExec_set (h (eachExec_of_set hwaiting hnone))
    intro x hx lease hlease
    cases hx
    cases hlease
  | acquired i acquirer lease leases hwaiting hacquired =>
    intro hnone j y hy held hheld
    rcases set_cases hy with ⟨_, hnew⟩ | ⟨_, hold⟩
    · cases hnew
      cases hheld
      exact holdsLanes_of_acquired hacquired
    · exact (h (eachExec_of_set hwaiting hnone) j y hold held hheld).of_acquired hacquired
  | refused i hwaiting =>
    intro hnone
    apply eachExec_set (h (eachExec_of_set hwaiting hnone))
    intro x hx
    cases hx
  | stepped i x x' db' answer hx hallows hrun =>
    intro hnone
    have hlast := hnone i x' (set_dispatch_self s db' i _)
    rcases hrun.leases_cases with hreleased | ⟨hsame, hleases⟩
    · rw [hlast] at hreleased
      cases hreleased
    · have hbefore : EachExec (fun _ x => x.released = false) s := by
        intro j y hy
        by_cases hji : j = i
        · rw [hji, hx] at hy
          cases hy
          exact hsame.symm.trans hlast
        · exact hnone j y ((set_dispatch_of_ne hji).trans hy)
      intro j y hy lease hlease
      show HoldsLanes db'.leases lease
      rw [hleases]
      rcases set_cases hy with ⟨hji, hnew⟩ | ⟨_, hold⟩
      · cases hnew
        rw [hrun.task_eq.right] at hlease
        exact h hbefore i x hx lease hlease
      · exact h hbefore j y hold lease hlease

/-!
## Safety
-/

structure SpawnsSafely (task : TaskRow) (plan : ι -> Plan) (s : SpawnState ι) : Prop where
  ofTask : EachExec (fun i => OfTask task (plan i)) s
  claimedOnce : ClaimedOnce s.db.tasks s.execOf
  held : HeldUntilReleased s

theorem reachable_spawnsSafely (hs : (spawnMachine capacities task plan).Reachable s) :
    SpawnsSafely task plan s := by
  apply hs.invariant (I := SpawnsSafely task plan) _ _
  · intro start hstart
    have hwaiting : forall {P : ι -> Exec -> Prop}, EachExec P start := by
      intro P i x hx
      rw [hstart.right.right i] at hx
      cases hx
    have hnone : forall {i x}, start.execOf i ≠ some x := by
      intro i x hx
      exact hwaiting (P := fun _ _ => False) i x (execOf_eq_some.mp hx)
    exact ⟨hwaiting, ⟨fun i x hx => absurd hx hnone,
      fun i j x y hx => absurd hx hnone⟩, fun _ => hwaiting⟩
  · intro before op after h _ hstep
    have heffect := spawnStep_effect hstep
    exact ⟨ofTask_effect h.ofTask heffect, claimedOnce_effect h.claimedOnce heffect,
      heldUntilReleased_effect h.held heffect⟩

variable {j : ι}

omit [DecidableEq ι] in
theorem SpawnsSafely.unique {y : Exec} (h : SpawnsSafely task plan s)
    (hx : s.dispatch i = .running x) (hy : s.dispatch j = .running y) (hcx : x.claimed = true)
    (hcy : y.claimed = true) : i = j := by
  have hsame : x.task = y.task := (h.ofTask i x hx).task_eq.trans (h.ofTask j y hy).task_eq.symm
  exact h.claimedOnce.unique i j x y (execOf_eq_some.mpr hx)
    (execOf_eq_some.mpr hy) hcx hcy (by rw [hsame])

/-- While a dispatch has claimed the row and not given its lanes back, the
table has their rows. -/
def KeepsWinnersLanes (s : SpawnState ι) : Prop :=
  EachExec (fun _ x => x.claimed = true -> x.released = false ->
    forall lease, x.lease = some lease -> HoldsLanes s.db.leases lease) s

theorem keepsWinnersLanes_of_spares (h : SpawnsSafely task plan s)
    (hspares : forall i j, i ≠ j -> (plan i).policy = .admitted ->
      (plan j).Spares) : KeepsWinnersLanes s := by
  intro i x hx hclaimed hreleased
  apply h.held _ i x hx
  intro j y hy
  by_cases hij : i = j
  · rw [← hij, hx] at hy
    cases hy
    exact hreleased
  · have hadmitted := (h.ofTask i x hx).follows.admitted (Or.inr hclaimed)
    rcases (h.ofTask j y hy).follows.idle (hspares i j hij hadmitted) with hother | hidle
    · exact absurd (h.unique hx hy hclaimed hother) hij
    · exact hidle.left

/-- The lanes of the task expand to some, so its dispatches run under a
lease. -/
def TakesLanes (task : TaskRow) : Prop :=
  exists expanded, expandLanes task.requiresLanes = .ok expanded ∧ expanded ≠ []

omit [DecidableEq ι] in
theorem keepsWinnersLanes_of_not_takesLanes (h : SpawnsSafely task plan s)
    (hnone : ¬ TakesLanes task) : KeepsWinnersLanes s := by
  intro i x hx _ _ lease hlease lane hlane
  have hexpanded := (h.ofTask i x hx).lanes lease hlease
  exact absurd ⟨lease.lanes, hexpanded, List.ne_nil_of_mem hlane⟩ hnone

/-!
## The lanes a losing dispatch takes away

A dispatch whose claim is rejected has no outcome; once its cleanup confirms it
gives back the lane rows it shares with the winner.
-/

/-- The answers that lead a losing dispatch to its release. -/
def loserAnswers (plan : Plan) : List Answer :=
  match plan.policy with
  | .admitted =>
    [.policy .admitted, .claim ⟨0⟩ .done, .resources plan.cleanup, .lanes .done]
  | .failed => [.policy .failed, .resources plan.cleanup, .lanes .done]
  | .denied denial =>
    [.policy (.denied denial), .resources plan.cleanup, .terminal ⟨0⟩ .done, .lanes .done]

theorem allows_loserAnswers (plan : Plan) :
    forall answer, answer ∈ loserAnswers plan -> plan.Allows answer := by
  unfold loserAnswers
  split
  all_goals
    rename_i hpolicy
    simp [Plan.Allows, hpolicy]

/-- A denied dispatch, or one whose cleanup confirms, releases the lanes of a
task another dispatch runs. -/
theorem loser_releases {plan : Plan} {row : TaskRow} (hpc : x.pc = .policy)
    (hlease : x.lease = some lease) (hrow : db.tasks.find? x.task.taskId = some row)
    (hrunning : row.state = .running) (hspares : ¬ plan.Spares) :
    exists tasks x', runAll db x (loserAnswers plan) =
      some (⟨tasks, release db.leases lease⟩, x') := by
  have hconfirmed : (forall denial, plan.policy ≠ .denied denial) ->
      plan.cleanup.verdict = .confirmed := by
    intro hundenied
    apply by_contra
    intro hunconfirmed
    exact hspares ⟨hundenied, hunconfirmed⟩
  unfold loserAnswers
  split
  · rename_i hpolicy
    have hverdict := hconfirmed (by simp [hpolicy])
    have hrejected : transition db.tasks x.task.taskId .running [] ⟨0⟩ =
        .error (.illegalTransition x.task.taskId .running .running) := by
      simp [transition, hrow, hrunning, TaskState.transitions]
    simp [runAll, runStep, hpc, hlease, Exec.goto, stepClaim, hrejected,
      DbAnswer.commits, DbAnswer.fault?, resourcesPc, hverdict, settlePc, stepLanes]
  · rename_i hpolicy
    have hverdict := hconfirmed (by simp [hpolicy])
    simp [runAll, runStep, hpc, hlease, Exec.goto, DbAnswer.commits,
      resourcesPc, hverdict, settlePc, stepLanes]
  · rename_i denial hpolicy
    have hallowed : (deniedOutcome x.task denial).outcome.state.taskState ∈
        row.state.transitions := by
      rw [hrunning]
      exact List.mem_of_getElem? (i := 2) rfl
    have hcancelled : exists tasks, transition db.tasks x.task.taskId
        (deniedOutcome x.task denial).outcome.state.taskState
        (settledEvidence (deniedOutcome x.task denial).evidence
          (deniedOutcome x.task denial).outcome plan.cleanup.verdict) ⟨0⟩ =
        .ok tasks := transition_of_find? hrow hallowed
    rcases hcancelled with ⟨tasks, hok⟩
    simp [runAll, runStep, hpc, hlease, Exec.goto, DbAnswer.commits,
      DbAnswer.fault?, resourcesPc, stepTerminal, hok, settlePc, stepLanes]

theorem set_set (s : SpawnState ι) (db db' : Db) (i : ι) (a b : Dispatch) :
    (s.set db i a).set db' i b = s.set db' i b := by
  simp [SpawnState.set]

theorem set_self (h : s.dispatch i = dispatch) : s.set s.db i dispatch = s := by
  rw [← h, SpawnState.set, Function.update_eq_self]

theorem run_dispatch (capacities : Capacities) (task : TaskRow) {answers : List Answer}
    (hx : s.dispatch i = .running x)
    (hallows : forall answer, answer ∈ answers -> (plan i).Allows answer)
    (h : runAll s.db x answers = some (db', x')) :
    (spawnMachine capacities task plan).Run Machine.Always s
      (answers.map (SpawnOp.step i)) (s.set db' i (.running x')) := by
  induction answers generalizing s x with
  | nil =>
    cases h
    rw [set_self hx]
    exact .nil s
  | cons answer rest ih =>
    rw [runAll] at h
    cases hstep : runStep s.db x answer with
    | none =>
      rw [hstep] at h
      cases h
    | some next =>
      rw [hstep] at h
      have hone : spawnStep capacities task plan s (.step i answer) =
          some (s.set next.fst i (.running next.snd)) := by
        rw [spawnStep, hx]
        dsimp only
        rw [if_pos (hallows answer List.mem_cons_self), hstep]
        rfl
      have hrest := ih (set_dispatch_self s next.fst i _)
        (fun other hother => hallows other (List.mem_cons_of_mem answer hother)) h
      rw [set_set] at hrest
      exact .cons trivial hone hrest

variable {expanded : List KnownLane}

theorem winner_claims {row : TaskRow} (hpc : x.pc = .policy) (hlease : x.lease = some lease)
    (hrow : db.tasks.find? x.task.taskId = some row) (hqueued : row.state = .queued) :
    exists tasks claimedRow, runAll db x [.policy .admitted, .claim ⟨0⟩ .done] =
        some (⟨tasks, db.leases⟩, { x with claimed := true, pc := .lookup }) ∧
      tasks.find? x.task.taskId = some claimedRow ∧ claimedRow.state = .running := by
  have hallowed : TaskState.running ∈ row.state.transitions := by
    rw [hqueued]
    exact List.mem_cons_self
  have hclaim : exists tasks, transition db.tasks x.task.taskId .running [] ⟨0⟩ =
      .ok tasks := transition_of_find? hrow hallowed
  rcases hclaim with ⟨tasks, hok⟩
  refine ⟨tasks, moved row .running [] ⟨0⟩, ?_, ?_, rfl⟩
  · simp [runAll, runStep, hpc, hlease, Exec.goto, stepClaim, hok,
      DbAnswer.commits, DbAnswer.fault?]
  · rw [find?_transition hok, if_pos rfl, hrow]
    rfl

theorem not_holdsLanes_release (h : lease.lanes ≠ []) :
    ¬ HoldsLanes (release leases lease) lease := by
  intro hholds
  rcases List.exists_mem_of_ne_nil lease.lanes h with ⟨lane, hlane⟩
  rcases hholds lane hlane with ⟨row, hrow, hrowLane, hholder⟩
  exact (mem_release.mp hrow).right hholder lane hlane hrowLane

def freshSpawn (task : TaskRow) (leases : Leases) : SpawnState ι where
  db :=
    { tasks := { rows := [task], unique := List.nodup_singleton _ }
      leases := leases }
  dispatch := fun _ => .waiting

def heldExec (task : TaskRow) (expanded : List KnownLane) : Exec where
  task := task
  lease := some ⟨task.taskId, expanded⟩

section

variable (plan : ι -> Plan) (hexpanded : expandLanes task.requiresLanes = .ok expanded)
  (hne : expanded ≠ [])

include hexpanded hne

theorem run_acquire (hwaiting : s.dispatch i = .waiting) (hfits : forall lane, lane ∈ expanded ->
      laneRefuses capacities s.db.leases task.taskId lane = false) :
    exists leases, HoldsLanes leases ⟨task.taskId, expanded⟩ ∧
      (spawnMachine capacities task plan).Run Machine.Always s [.acquire i someAcquirer]
        (s.set ⟨s.db.tasks, leases⟩ i
          (.running { task := task, lease := some ⟨task.taskId, expanded⟩ })) := by
  have hlanes : task.requiresLanes ≠ [] := by
    intro hnil
    rw [hnil] at hexpanded
    cases hexpanded
    exact hne rfl
  have hacquired : acquireMany capacities s.db.leases (acquireRequest task)
      someAcquirer = .ok (some ⟨task.taskId, expanded⟩, _) :=
    acquireMany_granted hlanes hexpanded hfits
  refine ⟨_, holdsLanes_of_acquired hacquired, ?_⟩
  refine .cons trivial ?_ (.nil _)
  show spawnStep capacities task plan s (.acquire i someAcquirer) = _
  rw [spawnStep, hwaiting]
  rw [if_neg hlanes, hacquired]

variable {before : Leases} (hfits : forall lane, lane ∈ expanded ->
    laneRefuses capacities before task.taskId lane = false) (hij : i ≠ j)

include hfits hij

theorem both_acquire :
    exists trace s, (spawnMachine capacities task plan).Run Machine.Always
        (freshSpawn task before) trace s ∧ s.dispatch i = .running (heldExec task expanded) ∧
      s.dispatch j = .running (heldExec task expanded) ∧
      s.db.tasks.find? task.taskId = some task := by
  rcases run_acquire (s := freshSpawn task before) plan hexpanded hne (i := i) rfl
    hfits with ⟨leases, hheld, hrunI⟩
  have hwaiting : ((freshSpawn task before).set
      ⟨(freshSpawn (ι := ι) task before).db.tasks, leases⟩ i
        (.running (heldExec task expanded))).dispatch j = .waiting :=
    set_dispatch_of_ne hij.symm
  have hshared : forall lane, lane ∈ expanded ->
      laneRefuses capacities leases task.taskId lane = false := by
    intro lane hlane
    rcases hheld lane hlane with ⟨row, hrow, hlaneEq, hholder⟩
    exact laneRefuses_eq_false.mpr (Or.inl (mem_holdersOf.mpr ⟨row, hrow, hlaneEq, hholder⟩))
  rcases run_acquire plan hexpanded hne hwaiting hshared with ⟨leases', _, hrunJ⟩
  refine ⟨_, _, hrunI.append hrunJ, ?_, set_dispatch_self _ _ j _, ?_⟩
  · exact (set_dispatch_of_ne hij).trans (set_dispatch_self _ _ i _)
  · exact Table.find?_eq_some.mpr ⟨List.mem_singleton.mpr rfl, rfl⟩

variable {plan}

/-- If one dispatch may claim and another does not spare its lanes, some
interleaving takes the winner's lanes away. -/
theorem winner_loses_lanes (hqueued : task.state = .queued)
    (hadmitted : (plan i).policy = .admitted) (hspares : ¬ (plan j).Spares) :
    exists s, (spawnMachine capacities task plan).Reachable s ∧ ¬ KeepsWinnersLanes s := by
  rcases both_acquire plan hexpanded hne hfits hij with
    ⟨trace, both, hrunBoth, hheldI, hheldJ, hrow⟩
  -- the first dispatch claims the row
  have hclaims : exists tasks claimedRow, runAll both.db (heldExec task expanded)
      [.policy .admitted, .claim ⟨0⟩ .done] = some (⟨tasks, both.db.leases⟩,
        { heldExec task expanded with claimed := true, pc := .lookup }) ∧
      tasks.find? task.taskId = some claimedRow ∧ claimedRow.state = .running :=
    winner_claims rfl rfl hrow hqueued
  rcases hclaims with ⟨tasks, claimedRow, hclaims, hclaimedRow, hrunning⟩
  have hrunWinner := run_dispatch capacities task hheldI (by
    intro answer hanswer
    rcases List.mem_cons.mp hanswer with rfl | hclaim
    · exact hadmitted.symm
    · rw [List.mem_singleton.mp hclaim]
      exact trivial) hclaims
  -- the second one then gives the shared lanes back
  have hloses : exists tasks' loser, runAll ⟨tasks, both.db.leases⟩
      (heldExec task expanded) (loserAnswers (plan j)) =
        some (⟨tasks', release both.db.leases ⟨task.taskId, expanded⟩⟩, loser) :=
    loser_releases rfl rfl hclaimedRow hrunning hspares
  rcases hloses with ⟨tasks', loser, hloses⟩
  have hstillJ : (both.set ⟨tasks, both.db.leases⟩ i (.running
      { heldExec task expanded with claimed := true, pc := .lookup })).dispatch j
        = .running (heldExec task expanded) :=
    (set_dispatch_of_ne hij.symm).trans hheldJ
  have hrunLoser := run_dispatch capacities task hstillJ (allows_loserAnswers (plan j)) hloses
  refine ⟨_, ⟨freshSpawn task before, _, ⟨List.mem_singleton.mpr rfl, hqueued, fun _ => rfl⟩,
    (hrunBoth.append hrunWinner).append hrunLoser⟩, ?_⟩
  intro hkeeps
  exact not_holdsLanes_release hne
    (hkeeps i _ ((set_dispatch_of_ne hij).trans (set_dispatch_self both _ i _)) rfl rfl _ rfl)

end

def ownLeases (task : TaskRow) (expanded : List KnownLane) : Leases :=
  Table.empty.insertOrReplaceAll (expanded.map (acquiredRow (acquireRequest task) someAcquirer))

theorem laneRefuses_ownLeases (hexpanded : expandLanes task.requiresLanes = .ok expanded)
    {lane : KnownLane} (hlane : lane ∈ expanded) :
    laneRefuses capacities (ownLeases task expanded) task.taskId lane = false := by
  apply laneRefuses_eq_false.mpr
  apply Or.inl
  apply mem_holdersOf.mpr
  refine ⟨acquiredRow (acquireRequest task) someAcquirer lane, ?_, rfl, rfl⟩
  exact (mem_acquired (expandLanes_nodup hexpanded)).mpr (Or.inl ⟨lane, hlane, rfl⟩)

/-- At most one of the dispatches of a queued task calls the executor.  The
winner keeps its lane rows under every interleaving exactly if the task takes
no lanes or, whenever a dispatch is admitted, every other one is not denied and
does not confirm its cleanup. -/
theorem double_spawn_safety (capacities : Capacities) (task : TaskRow)
    (plan : ι -> Plan) (hqueued : task.state = .queued) :
    (forall s, (spawnMachine capacities task plan).Reachable s ->
      forall i j x y, s.dispatch i = .running x -> s.dispatch j = .running y ->
        x.invoked = true -> y.invoked = true -> i = j) ∧
    ((forall s, (spawnMachine capacities task plan).Reachable s -> KeepsWinnersLanes s) <->
      (TakesLanes task -> forall i j, i ≠ j -> (plan i).policy = .admitted ->
        (plan j).Spares)) := by
  constructor
  · intro s hs i j x y hx hy hix hiy
    have hsafe := reachable_spawnsSafely hs
    have hcx := (hsafe.ofTask i x hx).first.invoked hix
    have hcy := (hsafe.ofTask j y hy).first.invoked hiy
    exact hsafe.unique hx hy hcx hcy
  · constructor
    · intro hkeeps htakes i j hij hadmitted
      rcases htakes with ⟨expanded, hexpanded, hne⟩
      apply by_contra
      intro hspares
      rcases winner_loses_lanes hexpanded hne (fun lane =>
        laneRefuses_ownLeases hexpanded) hij hqueued hadmitted hspares with ⟨s, hs, hlost⟩
      exact hlost (hkeeps s hs)
    · intro hspares s hs
      have hsafe := reachable_spawnsSafely hs
      by_cases htakes : TakesLanes task
      · exact keepsWinnersLanes_of_spares hsafe (hspares htakes)
      · exact keepsWinnersLanes_of_not_takesLanes hsafe htakes

end

end

def buildTask : TaskRow where
  taskId := "t"
  kind := "targeted_build"
  state := .queued
  requiresLanes := ["build_lane"]
  createdAt := ⟨0⟩
  updatedAt := ⟨0⟩

def unconfirmedPlan (_ : Bool) : Plan where
  policy := .admitted
  cleanup := .answered false

theorem double_spawn_safety_unconfirmed : TakesLanes buildTask ∧
    forall s, (spawnMachine defaultLaneCapacities buildTask
      unconfirmedPlan).Reachable s -> KeepsWinnersLanes s := by
  have hsafety := double_spawn_safety defaultLaneCapacities buildTask unconfirmedPlan rfl
  refine ⟨⟨[.buildLane], rfl, by decide⟩, hsafety.right.mpr ?_⟩
  intro _ i j _ _
  constructor
  · nofun
  · nofun

/-- Two dispatches of the build task without a GPU lease, whose cleanup is
always confirmed: the rejected claim of one gives back the lane rows the other
runs under. -/
theorem loser_releases_winners_lanes :
    exists s, (spawnMachine defaultLaneCapacities buildTask
      (fun _ : Bool => ⟨.admitted, .answered true⟩)).Reachable s ∧ ¬ KeepsWinnersLanes s := by
  have hexpanded : expandLanes buildTask.requiresLanes = .ok [.buildLane] := rfl
  have hfits : forall lane, lane ∈ [KnownLane.buildLane] ->
      laneRefuses defaultLaneCapacities Table.empty buildTask.taskId lane = false := by
    decide
  refine winner_loses_lanes (i := true) (j := false) hexpanded (by decide)
    hfits (by decide) rfl rfl ?_
  intro hspares
  exact hspares.unconfirmed rfl

end Loop
end Hyperloom
