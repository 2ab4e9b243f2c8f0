import Hyperloom.Loop.Dispatcher

/-!
# The phase barrier

A pass of the phase machine that finds a transition pending freezes admission,
cancels the queued work the next phase does not admit, reads the running rows
and the completion queue, and commits if both are empty.  Executions go on
between any two of its awaits; the pump does not run during a pass.
-/

namespace Hyperloom
namespace Phases

open Library Storage Bus State Loop

/-!
## The machine
-/

/-- What a pass of `advance_phase_if_needed` waits for, or is about to do. -/
inductive Pass where
  | idle
  | frozen (allowedKinds : List String) (reason : String)
  | drained
  | read (anyRunning : Bool)
deriving DecidableEq

/-- The dispatcher, `admission_frozen`, how many transitions have committed, how
many executions were spawned before the current phase, and the pass. -/
structure BarrierState where
  dispatcher : DispatchState
  admissionFrozen : Bool
  phase : Nat
  phaseStart : Nat
  pass : Pass

inductive BarrierOp where
  | dispatch (op : DispatchOp)
  | noTransition
  | freeze (allowedKinds : List String) (reason : String)
  | cancelQueued (now : Iso)
  | readRunning
  | conclude
  | abort

/-- The steps only the pump takes. -/
def byPump : DispatchOp -> Bool
  | .spawn _ _ => true
  | .book => true
  | _ => false

def spawns : DispatchOp -> Bool
  | .spawn _ _ => true
  | _ => false

variable (s : BarrierState)

/-- The end of `_drain_for_transition` and the commit, without an await between
them. -/
def concludeTransition (anyRunning : Bool) : BarrierState :=
  if anyRunning || !s.dispatcher.queue.isEmpty then { s with pass := .idle }
  else
    { s with
      pass := .idle
      admissionFrozen := false
      phase := s.phase + 1
      phaseStart := s.dispatcher.execs.length }

variable (capacities : Capacities)

def barrierStep (s : BarrierState) (op : BarrierOp) : Option BarrierState :=
  match op, s.pass with
  | .dispatch op, _ =>
    if byPump op ∧ s.pass ≠ .idle ∨ spawns op ∧ s.admissionFrozen then none
    else
      (dispatchStep capacities s.dispatcher op).map (fun dispatcher =>
        { s with dispatcher := dispatcher })
  | .noTransition, .idle => some { s with admissionFrozen := false }
  | .freeze allowedKinds reason, .idle =>
    some { s with admissionFrozen := true, pass := .frozen allowedKinds reason }
  | .cancelQueued now, .frozen allowedKinds reason =>
    let tasks := (cancelQueued s.dispatcher.db.tasks allowedKinds reason now).snd
    some { s with
      dispatcher := { s.dispatcher with db := ⟨tasks, s.dispatcher.db.leases⟩ }
      pass := .drained }
  | .readRunning, .drained =>
    some { s with pass := .read (!(running s.dispatcher.db.tasks).isEmpty) }
  | .conclude, .read anyRunning => some (concludeTransition s anyRunning)
  -- a pass that is cancelled or raises leaves admission frozen
  | .abort, _ => some { s with pass := .idle }
  | _, _ => none

def barrierMachine : Machine BarrierState BarrierOp where
  init s := (dispatchMachine capacities).init s.dispatcher ∧ s.phaseStart = 0 ∧ s.pass = .idle
  step := barrierStep capacities

def BarrierState.spawnedNow : List Execution :=
  s.dispatcher.execs.drop s.phaseStart

def RowRunning (tasks : Tasks) (e : Execution) : Prop :=
  exists row, row ∈ tasks.rows ∧ row.taskId = e.task.taskId ∧ row.state = .running

/-- The execution was refused before it ran, has handed its completion over, or
is of a self-settling kind and has ended. -/
def accounted (e : Execution) : Bool :=
  match e.stage with
  | .refused => true
  | .completed _ _ => true
  | .running x => e.selfSettling && x.raises
  | _ => false

/-- When the running rows are read, every execution of the phase that is not
accounted for has its row running. -/
def SeesUnsettled : BarrierOp -> Prop
  | .readRunning =>
    forall e, e ∈ s.spawnedNow -> accounted e = true ∨ RowRunning s.dispatcher.db.tasks e
  | _ => True

instance (tasks : Tasks) (e : Execution) : Decidable (RowRunning tasks e) :=
  inferInstanceAs (Decidable (exists row, row ∈ tasks.rows ∧ _))

instance (op : BarrierOp) : Decidable (SeesUnsettled s op) :=
  match op with
  | .readRunning =>
    inferInstanceAs (Decidable (forall e, e ∈ s.spawnedNow -> _))
  | .dispatch _ => isTrue trivial
  | .noTransition => isTrue trivial
  | .freeze _ _ => isTrue trivial
  | .cancelQueued _ => isTrue trivial
  | .conclude => isTrue trivial
  | .abort => isTrue trivial

/-!
## Steps
-/

inductive BarrierEffect (s t : BarrierState) : BarrierOp -> Prop where
  | dispatched (op : DispatchOp) : DispatchEffect op s.dispatcher t.dispatcher ->
    (s.pass = .idle ∨ forall task acquirer, op ≠ .spawn task acquirer) ->
    t.pass = s.pass -> t.phase = s.phase -> t.phaseStart = s.phaseStart ->
    BarrierEffect s t (.dispatch op)
  | passed (op : BarrierOp) : t.dispatcher.execs = s.dispatcher.execs ->
    t.dispatcher.queue = s.dispatcher.queue -> t.dispatcher.booked = s.dispatcher.booked ->
    t.pass ≠ .read false -> t.phase = s.phase -> t.phaseStart = s.phaseStart -> BarrierEffect s t op
  | read :
    t = { s with pass := .read (!(running s.dispatcher.db.tasks).isEmpty) } ->
    BarrierEffect s t .readRunning
  | committed : s.pass = .read false -> s.dispatcher.queue = [] ->
    t.dispatcher = s.dispatcher -> t.pass = .idle -> BarrierEffect s t .conclude

variable {s : BarrierState}

theorem concludeTransition_effect {anyRunning : Bool} (hpass : s.pass = .read anyRunning) :
    BarrierEffect s (concludeTransition s anyRunning) .conclude := by
  unfold concludeTransition
  split
  · exact BarrierEffect.passed .conclude rfl rfl rfl (by intro h; cases h) rfl rfl
  · rename_i hempty
    rw [Bool.or_eq_true, not_or, Bool.not_eq_true] at hempty
    rcases hempty with ⟨rfl, hqueue⟩
    have hnil : s.dispatcher.queue = [] := by simpa using hqueue
    exact BarrierEffect.committed hpass hnil rfl rfl

variable {t : BarrierState} {op : BarrierOp}

theorem barrierStep_effect {capacities : Capacities}
    (h : barrierStep capacities s op = some t) : BarrierEffect s t op := by
  revert h
  fun_cases barrierStep capacities s op with (intro h; try cases h)
  | case2 op hallowed =>
    rcases Option.map_eq_some_iff.mp h with ⟨dispatcher, hstep, rfl⟩
    refine BarrierEffect.dispatched op (dispatchStep_effect hstep) ?_ rfl rfl rfl
    by_cases hidle : s.pass = .idle
    · exact Or.inl hidle
    · right
      intro task acquirer hspawn
      rw [hspawn] at hallowed
      exact hallowed (Or.inl ⟨rfl, hidle⟩)
  | case3 hpass =>
    exact BarrierEffect.passed _ rfl rfl rfl (by rw [hpass]; intro h; cases h) rfl rfl
  | case6 => exact BarrierEffect.read rfl
  | case7 anyRunning hpass => exact concludeTransition_effect hpass
  | _ => exact BarrierEffect.passed _ rfl rfl rfl (by intro h; cases h) rfl rfl

/-!
## The barrier holds
-/

variable {e : Execution} {i : Nat}

theorem mem_spawnedNow (hi : s.phaseStart ≤ i)
    (he : s.dispatcher.execs[i]? = some e) : e ∈ s.spawnedNow := by
  apply List.mem_of_getElem? (i := i - s.phaseStart)
  unfold BarrierState.spawnedNow
  rw [List.getElem?_drop, Nat.add_sub_cancel' hi]
  exact he

theorem settled_of_accounted (h : accounted e = true) : e.settled = true := by
  unfold accounted at h
  unfold Execution.settled Execution.raised
  split at h
  · rename_i hstage
    rw [hstage]
  · rename_i hstage
    rw [hstage]
  · rename_i hstage
    rw [hstage]
    exact (Bool.and_eq_true_iff.mp h).right
  · cases h

/-- Once a read has found nothing running, every execution of the phase is
accounted for. -/
def QuietWhenRead (s : BarrierState) : Prop :=
  s.pass = .read false -> forall i e, s.phaseStart ≤ i ->
    s.dispatcher.execs[i]? = some e -> accounted e = true

theorem quiet_of_read (hsees : SeesUnsettled s .readRunning)
    (hnone : (running s.dispatcher.db.tasks).isEmpty = true)
    (hi : s.phaseStart ≤ i) (he : s.dispatcher.execs[i]? = some e) : accounted e = true := by
  rcases hsees e (mem_spawnedNow hi he) with haccounted | ⟨row, hrow, _, hrunning⟩
  · exact haccounted
  · have hmem := mem_running.mpr ⟨hrow, hrunning⟩
    rw [List.isEmpty_iff.mp hnone] at hmem
    exact absurd hmem List.not_mem_nil

theorem quietWhenRead_step (h : QuietWhenRead s) (hsees : SeesUnsettled s op)
    (heffect : BarrierEffect s t op) : QuietWhenRead t := by
  intro hread i e hi he
  cases heffect with
  | dispatched op hdispatch hspawn hpass _ hstart =>
    rw [hpass] at hread
    rw [hstart] at hi
    have hop : forall task acquirer, op ≠ .spawn task acquirer := by
      rcases hspawn with hidle | hop
      · rw [hidle] at hread
        cases hread
      · exact hop
    rcases settled_stays hdispatch hop he with ⟨old, hold, hstays⟩
    have haccounted := h hread i old hi hold
    rw [hstays (settled_of_accounted haccounted)]
    exact haccounted
  | passed op _ _ _ hpass _ _ => exact absurd hread hpass
  | read heq =>
    rw [heq] at hread hi he
    have hnone : (running s.dispatcher.db.tasks).isEmpty = true := by
      injection hread with hfalse
      simpa using hfalse
    exact quiet_of_read hsees hnone hi he
  | committed _ _ _ hidle =>
    rw [hidle] at hread
    cases hread

theorem bookedOnce_barrier (h : BookedOnce s.dispatcher)
    (heffect : BarrierEffect s t op) : BookedOnce t.dispatcher := by
  cases heffect with
  | dispatched op hdispatch _ _ _ _ => exact bookedOnce_step h hdispatch
  | passed op hexecs hqueue hbooked _ _ _ =>
    exact h.congr (by rw [hqueue, hbooked]) (DispatchState.readAt_congr _ hexecs)
  | read heq =>
    rw [heq]
    exact h
  | committed _ _ hsame _ =>
    rw [hsame]
    exact h

theorem reachable_barrier {capacities : Capacities}
    (hs : (barrierMachine capacities).ReachableWhere SeesUnsettled s) :
    BookedOnce s.dispatcher ∧ QuietWhenRead s := by
  apply hs.invariant (I := fun s => BookedOnce s.dispatcher ∧ QuietWhenRead s) _ _
  · intro start hstart
    rcases hstart with ⟨⟨hexecs, hqueue, hbooked⟩, _, hidle⟩
    refine ⟨(booksOnce_init hexecs hqueue hbooked).bookedOnce, ?_⟩
    intro hread
    rw [hidle] at hread
    cases hread
  · intro before op after h hsees hstep
    have heffect := barrierStep_effect hstep
    exact ⟨bookedOnce_barrier h.left heffect, quietWhenRead_step h.right hsees heffect⟩

theorem completionOf_eq_some {s : DispatchState} {x : Exec}
    {outcome : SubAgentResult} (he : s.execs[i]? = some e)
    (hstage : e.stage = .completed x outcome) (hself : e.selfSettling = false) :
    s.completionOf i = some outcome := by
  refine (DispatchState.readAt_of_found _ he).trans ?_
  unfold Execution.completion?
  rw [hstage]
  exact if_neg (by rw [hself]; exact Bool.false_ne_true)

theorem booked_of_accounted {s : DispatchState} (h : BookedOnce s)
    (hqueue : s.queue = []) (he : s.execs[i]? = some e) (haccounted : accounted e = true) :
    e.stage = .refused ∨ (e.selfSettling = true ∧ e.settled = true) ∨
      (s.booked.map Prod.fst).count i = 1 := by
  have hsettled := settled_of_accounted haccounted
  cases hself : e.selfSettling with
  | true => exact Or.inr (Or.inl ⟨rfl, hsettled⟩)
  | false =>
    unfold accounted at haccounted
    split at haccounted
    · rename_i hstage
      exact Or.inl hstage
    · rename_i x outcome hstage
      have hcount := h.count_eq_one (completionOf_eq_some he hstage hself)
      rw [hqueue, List.map_nil, List.count_nil, Nat.zero_add] at hcount
      exact Or.inr (Or.inr hcount)
    · rw [hself] at haccounted
      cases haccounted
    · cases haccounted

/-- In runs whose reads see every execution that is not accounted for, a
transition commits only when each execution spawned in the old phase has been
booked once, or is of a self-settling kind and has ended. -/
theorem phase_barrier (capacities : Capacities) (s t : BarrierState) (op : BarrierOp)
    (hs : (barrierMachine capacities).ReachableWhere SeesUnsettled s)
    (hstep : (barrierMachine capacities).step s op = some t)
    (hcommit : t.phase ≠ s.phase) (i : Nat) (e : Execution)
    (hi : s.phaseStart ≤ i) (he : s.dispatcher.execs[i]? = some e) :
    e.stage = .refused ∨ (e.selfSettling = true ∧ e.settled = true) ∨
      (s.dispatcher.booked.map Prod.fst).count i = 1 := by
  rcases reachable_barrier hs with ⟨hbooked, hquiet⟩
  cases barrierStep_effect hstep with
  | dispatched op _ _ _ hphase _ | passed op _ _ _ _ hphase _ => exact absurd hphase hcommit
  | read heq => exact absurd (by rw [heq]) hcommit
  | committed hread hqueue _ _ =>
    exact booked_of_accounted hbooked hqueue he (hquiet hread i e hi he)

def freshSession : BarrierState where
  dispatcher := freshDispatcher
  admissionFrozen := false
  phase := 0
  phaseStart := 0
  pass := .idle

def passTrace : List BarrierOp :=
  [.freeze [] "phase_transition:PRELUDE->SWEEP", .cancelQueued ⟨3⟩, .readRunning]

def Commits (s : BarrierState) : Prop :=
  (barrierStep defaultLaneCapacities s .conclude).any (fun t => t.phase = s.phase + 1) = true

instance (s : BarrierState) : Decidable (Commits s) := inferInstanceAs (Decidable (_ = true))

theorem phase_barrier_booked :
    exists s, (barrierMachine defaultLaneCapacities).ReachableWhere SeesUnsettled s ∧ Commits s ∧
      (s.dispatcher.booked.map Prod.fst).count 0 = 1 := by
  have hrun : exists s, (barrierMachine defaultLaneCapacities).ReachableWhere
      SeesUnsettled s ∧ (Commits s ∧ s.phaseStart = 0 ∧
        s.dispatcher.execs.map (fun e => (e.raised, e.selfSettling)) = [(false, false)]) :=
    Machine.ReachableWhere.exists_of_runIf freshSession
      ((measured .notGiven ++ [DispatchOp.complete 0, DispatchOp.book]).map
        BarrierOp.dispatch ++ passTrace) ⟨⟨rfl, rfl, rfl⟩, rfl, rfl⟩ (by decide +kernel)
  rcases hrun with ⟨s, hs, hcommits, hstart, hexecs⟩
  refine ⟨s, hs, hcommits, ?_⟩
  rcases List.map_eq_singleton_iff.mp hexecs with ⟨e, hlist, hflags⟩
  have he : s.dispatcher.execs[0]? = some e := by rw [hlist]; rfl
  cases hstep : barrierStep defaultLaneCapacities s .conclude with
  | none =>
    rw [Commits, hstep] at hcommits
    cases hcommits
  | some t =>
    rw [Commits, hstep] at hcommits
    have hphase : t.phase = s.phase + 1 := of_decide_eq_true hcommits
    have hresult := phase_barrier defaultLaneCapacities s t .conclude hs hstep
      (by lia) 0 e (by lia) he
    injection hflags with hraised hself
    rcases hresult with hrefused | ⟨hselfTrue, _⟩ | hbooked
    · rw [Execution.raised, hrefused] at hraised
      cases hraised
    · rw [hself] at hselfTrue
      cases hselfTrue
    · exact hbooked

/-- The measurement has written its terminal row and not yet queued its
completion: no row is running, the queue is empty, and the transition commits
although the only execution of the phase, of no self-settling kind and not
raised, is not booked. -/
theorem commits_before_booking :
    exists s, (barrierMachine defaultLaneCapacities).Reachable s ∧ Commits s ∧
      s.spawnedNow.map (fun e => (e.raised, e.selfSettling)) = [(false, false)] ∧
      s.dispatcher.booked.map Prod.fst = [] :=
  Machine.ReachableWhere.exists_of_runIf freshSession
    ((measured .notGiven).map BarrierOp.dispatch ++ passTrace)
    ⟨⟨rfl, rfl, rfl⟩, rfl, rfl⟩ (by decide +kernel)

end Phases
end Hyperloom
