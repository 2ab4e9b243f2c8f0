import Hyperloom.Bringup.Reconciler
import Hyperloom.State.TaskHistory

/-!
# Settling the rounds of ended holders

An open round keeps every other bring-up off the machine, so a round whose
holder has ended and left nothing behind must be settled.  The rule that does
this reads the holder's task row, which `prune_tasks` may have deleted.
-/

namespace Hyperloom
namespace Bringup

open Library Storage Bus State

section

variable {γ : Type}

/-!
## Rounds that are due
-/

/-- The round is open, its holder ended by observation and long enough ago,
and nothing is left that could give it a result. -/
structure Due (py : Conversions γ) (nowUnix : Unix) (s : ReconcileState γ)
    (round : Round) (holder : TaskRow) : Prop where
  mem : round ∈ s.store.rounds
  isOpen : round.status = .open
  isHolder : holder.taskId = round.holderTaskId
  observed : terminalByObservation holder = true
  noLane : forall row, row ∈ s.store.leases ->
    row.taskId = round.holderTaskId -> row.lane = .bringupRound
  noGpu : forall row, row ∈ s.gpus -> row.taskId ≠ round.holderTaskId
  noSuccessor : forall task, task ∈ s.tasks -> task.state.isTerminal = false ->
    standsOn py task.params round.holderTaskId = false
  noVerdictOwed : forall pending, pending ∈ s.proposals ->
    forall params, paramsOf? pending = some params -> standsOn py params round.holderTaskId = false
  capPassed : terminalHolderCapSec ≤ nowUnix - unixOf holder.updatedAt

variable (s : ReconcileState γ)

def SettledExpired (roundId : String) : Prop :=
  exists round settledUnix, round ∈ s.store.rounds ∧ round.roundId = roundId ∧
    round.status = .settled .expiredReaped settledUnix

/-- Every pending proposal has a `params` that `get` works on. -/
def ReadableParams : Prop :=
  forall pending, pending ∈ s.proposals -> paramsOf? pending ≠ none

variable {py : Conversions γ} {round : Round} {s t : ReconcileState γ}
  {nowUnix : Unix} {holder : TaskRow}

section

variable (h : Due py nowUnix s round holder)

include h

theorem Due.calmed (hst : Calms s t) : Due py nowUnix t round holder where
  __ := h
  mem := by
    rw [hst.rounds]
    exact h.mem
  noLane row hrow := h.noLane row (hst.leases row hrow)
  noGpu row hrow := by
    rw [hst.gpus] at hrow
    exact h.noGpu row hrow
  noSuccessor task htask hlive := h.noSuccessor task (hst.live task htask hlive) hlive
  noVerdictOwed pending hpending := h.noVerdictOwed pending (hst.proposals pending hpending)

theorem Due.touched {other : Round}
    (hst : Touches other s t) (hother : other.roundId ≠ round.roundId) :
    Due py nowUnix t round holder where
  __ := h
  mem := (hst.rounds round hother.symm).mpr h.mem
  noLane row hrow htask := by
    apply Decidable.byContradiction
    intro hlane
    exact hlane (h.noLane row (hst.leases row hrow hlane) htask)
  noGpu row hrow := by
    rw [hst.gpus] at hrow
    exact h.noGpu row hrow
  noSuccessor task htask := by
    rw [hst.tasks] at htask
    exact h.noSuccessor task htask
  noVerdictOwed pending hpending := by
    rw [hst.proposals] at hpending
    exact h.noVerdictOwed pending hpending

theorem Due.isTerminal : holder.state.isTerminal = true := (Bool.and_eq_true_iff.mp h.observed).left

/-!
## What the rule answers for a due round
-/

theorem Due.no_resources : holderHasResources s.store.leases s.gpus holder.taskId = false := by
  unfold holderHasResources
  rw [Bool.or_eq_false_iff, List.any_eq_false, List.any_eq_false, h.isHolder]
  constructor
  · intro row hrow hholds
    rw [Bool.and_eq_true, decide_eq_true_eq, decide_eq_true_eq] at hholds
    exact hholds.right (h.noLane row hrow hholds.left)
  · intro row hrow hholds
    exact h.noGpu row hrow (of_decide_eq_true hholds)

end

variable {row : TaskRow}

theorem mem_queued {tasks : Tasks} : row ∈ queued tasks <-> row ∈ tasks ∧ row.state = .queued := by
  unfold queued
  rw [List.mem_insertionSort, List.mem_filter, decide_eq_true_eq]
  rfl

theorem Due.no_successor (h : Due py nowUnix s round holder) :
    successor py s.tasks round.holderTaskId = none := by
  unfold successor
  rw [List.find?_eq_none]
  intro task htask
  rw [Bool.not_eq_true]
  rcases List.mem_append.mp htask with hqueued | hrunning
  · rcases mem_queued.mp hqueued with ⟨hmem, hstate⟩
    apply h.noSuccessor task hmem
    rw [hstate]
    rfl
  · rcases mem_running.mp hrunning with ⟨hmem, hstate⟩
    apply h.noSuccessor task hmem
    rw [hstate]
    rfl

/-- Without a proposal on the holder's work, no verdict is owed unless some
`params` cannot be read. -/
theorem reviewOwesAVerdict_iff {holderTaskId : String} {proposals : List (PendingProposal γ)}
    (h : forall pending, pending ∈ proposals -> forall params,
      paramsOf? pending = some params -> standsOn py params holderTaskId = false) :
    reviewOwesAVerdict py holderTaskId proposals =
      if proposals.all (fun pending => (paramsOf? pending).isSome) then
        some false
      else none := by
  induction proposals with
  | nil => rfl
  | cons pending rest ih =>
    unfold reviewOwesAVerdict
    cases hparams : paramsOf? pending with
    | none => simp [hparams]
    | some params =>
      have hfree := h pending List.mem_cons_self params hparams
      have hrest := ih (fun other hother =>
        h other (List.mem_cons_of_mem pending hother))
      simp [hparams, hfree, hrest]

/-- The answer of `_advance_or_expire` for a due round whose holder is still in
the registry. -/
theorem advanceOrExpire_of_due (h : Due py nowUnix s round holder) (hholder : holder ∈ s.tasks) :
    advanceOrExpire py nowUnix s round =
      if s.proposals.all (fun pending => (paramsOf? pending).isSome) then
        some (expire nowUnix s round "holder_terminal_without_result")
      else none := by
  have hfound : s.tasks.find? round.holderTaskId = some holder :=
    Table.find?_eq_some.mpr ⟨hholder, h.isHolder⟩
  have hcap : ¬ nowUnix - unixOf holder.updatedAt < terminalHolderCapSec := not_lt.mpr h.capPassed
  simp only [advanceOrExpire, hfound, h.observed, h.no_resources,
    h.no_successor, reviewOwesAVerdict_iff h.noVerdictOwed, hcap,
    Bool.true_eq_false, Bool.false_eq_true, if_false]
  cases s.proposals.all (fun pending => (paramsOf? pending).isSome) with
  | _ => rfl

theorem advanceOrExpire_of_gone (h : s.tasks.find? round.holderTaskId = none) :
    advanceOrExpire py nowUnix s round = some s := by
  simp only [advanceOrExpire, h]

theorem settledExpired_expire (h : Due py nowUnix s round holder) (why : String) :
    SettledExpired (expire nowUnix s round why) round.roundId := by
  rcases expire_eq nowUnix s round why with ⟨report, heq⟩
  have hnames : Names round round := ⟨rfl, h.isOpen, rfl, rfl⟩
  rw [heq]
  refine ⟨{ round with status := .settled .expiredReaped nowUnix }, nowUnix, ?_, rfl, rfl⟩
  rw [swap_of_names h.mem hnames]
  exact (mem_swapped_rounds h.mem).mpr (Or.inl rfl)

theorem reviewOwesAVerdict_ne_none {py : Conversions γ} {holderTaskId : String}
    {proposals : List (PendingProposal γ)}
    (h : forall pending, pending ∈ proposals -> paramsOf? pending ≠ none) :
    reviewOwesAVerdict py holderTaskId proposals ≠ none := by
  induction proposals with
  | nil => simp [reviewOwesAVerdict]
  | cons pending rest ih =>
    unfold reviewOwesAVerdict
    split
    · rename_i hparams
      exact absurd hparams (h pending List.mem_cons_self)
    · split
      · simp
      · exact ih (fun other hother =>
          h other (List.mem_cons_of_mem pending hother))

theorem advanceOrExpire_ne_none (h : ReadableParams s) :
    advanceOrExpire py nowUnix s round ≠ none := by
  fun_cases advanceOrExpire py nowUnix s round with
  | case5 _ _ _ _ _ hnone => exact absurd hnone (reviewOwesAVerdict_ne_none h)
  | _ => simp

/-!
## The loop over the open rounds
-/

variable {rounds : List Round}

theorem resolveRounds_keeps {kept : Round}
    (hother : forall round, round ∈ rounds -> round.roundId ≠ kept.roundId)
    (hkept : kept ∈ s.store.rounds) :
    kept ∈ (resolveRounds py nowUnix rounds s).fst.store.rounds := by
  induction rounds generalizing s with
  | nil => exact hkept
  | cons round rest ih =>
    unfold resolveRounds
    split
    · exact hkept
    · rename_i next hnext
      apply ih (fun r hr => hother r (List.mem_cons_of_mem round hr))
      exact ((touches_advanceOrExpire hnext).rounds kept
        (hother round List.mem_cons_self).symm).mpr hkept

theorem ReadableParams.all (h : ReadableParams s) :
    s.proposals.all (fun pending => (paramsOf? pending).isSome) = true := by
  rw [List.all_eq_true]
  intro pending hpending
  exact Option.isSome_iff_ne_none.mpr (h pending hpending)

theorem resolveRounds_settles (hdue : Due py nowUnix s round holder)
    (hholder : holder ∈ s.tasks) (hreadable : ReadableParams s)
    (hround : round ∈ rounds) (hnodup : (rounds.map Round.roundId).Nodup) :
    SettledExpired (resolveRounds py nowUnix rounds s).fst round.roundId := by
  induction rounds generalizing s with
  | nil => cases hround
  | cons first rest ih =>
    rw [List.map_cons, List.nodup_cons] at hnodup
    unfold resolveRounds
    rcases List.mem_cons.mp hround with heq | hrest
    · -- The round itself: it is settled here and kept by the rest of the loop.
      rw [← heq, advanceOrExpire_of_due hdue hholder, if_pos hreadable.all]
      rcases settledExpired_expire hdue "holder_terminal_without_result" with
        ⟨settled, at', hsettled, hid, hstatus⟩
      refine ⟨settled, at', resolveRounds_keeps ?_ hsettled, hid, hstatus⟩
      intro other hother hsame
      apply hnodup.left
      rw [← heq, ← hid, ← hsame]
      exact List.mem_map_of_mem hother
    · have hne : first.roundId ≠ round.roundId := by
        intro hsame
        apply hnodup.left
        rw [hsame]
        exact List.mem_map_of_mem hrest
      split
      · rename_i hnone
        exact absurd hnone (advanceOrExpire_ne_none hreadable)
      · rename_i next hnext
        have htouches := touches_advanceOrExpire hnext
        apply ih (hdue.touched htouches hne) _ _ hrest hnodup.right
        · rw [htouches.tasks]
          exact hholder
        · intro pending hpending
          rw [htouches.proposals] at hpending
          exact hreadable pending hpending

def Blocked (s : ReconcileState γ) (round : Round) : Prop :=
  s.tasks.find? round.holderTaskId = none ∨ ¬ ReadableParams s

theorem Blocked.touched {other : Round} (h : Blocked s round)
    (hst : Touches other s t) : Blocked t round := by
  unfold Blocked ReadableParams
  rw [hst.tasks, hst.proposals]
  exact h

theorem advanceOrExpire_of_blocked (hdue : Due py nowUnix s round holder)
    (hblocked : Blocked s round)
    (hfound : s.tasks.find? round.holderTaskId = none ∨ holder ∈ s.tasks) :
    advanceOrExpire py nowUnix s round = some s ∨ advanceOrExpire py nowUnix s round = none := by
  rcases hfound with hgone | hholder
  · exact Or.inl (advanceOrExpire_of_gone hgone)
  · rw [advanceOrExpire_of_due hdue hholder]
    rcases hblocked with hgone | hunreadable
    · rw [Table.find?_eq_some.mpr ⟨hholder, hdue.isHolder⟩] at hgone
      cases hgone
    · rw [if_neg]
      · exact Or.inr rfl
      · intro hall
        apply hunreadable
        intro pending hpending
        exact Option.isSome_iff_ne_none.mp (List.all_eq_true.mp hall _ hpending)

theorem resolveRounds_leaves (hdue : Due py nowUnix s round holder) (hblocked : Blocked s round)
    (hfound : s.tasks.find? round.holderTaskId = none ∨ holder ∈ s.tasks)
    (hsame : forall other, other ∈ rounds -> other.roundId = round.roundId -> other = round) :
    round ∈ (resolveRounds py nowUnix rounds s).fst.store.rounds := by
  induction rounds generalizing s with
  | nil => exact hdue.mem
  | cons first rest ih =>
    have hrest := fun other hother => hsame other (List.mem_cons_of_mem first hother)
    unfold resolveRounds
    split
    · exact hdue.mem
    · rename_i next hnext
      by_cases hid : first.roundId = round.roundId
      · rw [hsame first List.mem_cons_self hid] at hnext
        rcases advanceOrExpire_of_blocked hdue hblocked hfound with hsome | hnone
        · rw [hsome] at hnext
          cases hnext
          exact ih hdue hblocked hfound hrest
        · rw [hnone] at hnext
          cases hnext
      · have htouches := touches_advanceOrExpire hnext
        refine ih (hdue.touched htouches hid) (hblocked.touched htouches) ?_ hrest
        rw [htouches.tasks]
        exact hfound

/-!
## The pass
-/

theorem mem_openRounds {rounds : Rounds} :
    round ∈ openRounds rounds <-> round ∈ rounds ∧ round.status = .open := by
  unfold openRounds
  rw [List.mem_insertionSort, List.mem_filter, decide_eq_true_eq]
  rfl

theorem nodup_openRounds (rounds : Rounds) : ((openRounds rounds).map Round.roundId).Nodup := by
  have hperm := (List.perm_insertionSort (fun a b : Round => a.openedUnix ≤ b.openedUnix)
    (rounds.rows.filter (fun round => round.status = .open))).map Round.roundId
  rw [openRounds, hperm.nodup_iff]
  exact rounds.unique.sublist (List.filter_sublist.map Round.roundId)

theorem not_settledExpired (hmem : round ∈ s.store.rounds)
    (hopen : round.status = .open) : ¬ SettledExpired s round.roundId := by
  intro h
  rcases h with ⟨settled, at', hsettled, hid, hstatus⟩
  rw [Table.eq_of_key_eq hsettled hmem hid, hopen] at hstatus
  cases hstatus

variable {sql : SqlText} {pass : ReconcilePass}

/-- A pass settles a due round exactly if it finds the holder's row, can read
the proposals left after its denies, and meets no database error. -/
theorem run_settles_iff (hdue : Due py pass.nowUnix s round holder)
    (hfound : s.tasks.find? round.holderTaskId = none ∨ holder ∈ s.tasks) :
    SettledExpired (Reconciler.run py sql pass s).fst round.roundId <->
      holder ∈ s.tasks ∧ ReadableParams (sweep sql pass s) ∧
        pass.faults .resolveOpenRounds = false := by
  have hcalms := calms_sweep sql pass s
  have hdue' := hdue.calmed hcalms
  have hended := fun hholder => hcalms.ended holder hholder hdue.isTerminal
  have hopen := mem_openRounds.mpr ⟨hdue'.mem, hdue'.isOpen⟩
  unfold Reconciler.run
  cases hfault : pass.faults .resolveOpenRounds with
  | true =>
    simp only [Bool.true_eq_false, and_false, iff_false]
    exact not_settledExpired hdue'.mem hdue'.isOpen
  | false =>
    simp only [and_true]
    constructor
    · intro hsettled
      apply Classical.byContradiction
      intro hnot
      apply not_settledExpired _ hdue'.isOpen hsettled
      have hsame : forall other, other ∈ openRounds (sweep sql pass s).store.rounds ->
          other.roundId = round.roundId -> other = round := by
        intro other hother hid
        exact Table.eq_of_key_eq (mem_openRounds.mp hother).left hdue'.mem hid
      rcases hfound with hgone | hholder
      · have hgone' := hcalms.gone hgone
        exact resolveRounds_leaves hdue' (Or.inl hgone') (Or.inl hgone') hsame
      · have hunreadable : ¬ ReadableParams (sweep sql pass s) :=
          fun hreadable => hnot ⟨hholder, hreadable⟩
        exact resolveRounds_leaves hdue' (Or.inr hunreadable) (Or.inr (hended hholder)) hsame
    · intro h
      exact resolveRounds_settles hdue' (hended h.left) h.right hopen (nodup_openRounds _)

/-!
## Histories with pruning

The machine remembers the rows `prune_tasks` deleted, so that the last row of a
task is known after its deletion.
-/

structure RepairState (γ : Type) where
  stores : ReconcileState γ
  pruned : List TaskRow

/-- The registry, the round store, the task retention, the other writers of
the leases, the messages and the pending proposals, and the pass. -/
inductive RepairOp (γ : Type) where
  | registry (op : RegistryOp)
  | round (call : RoundCall)
  | prune (keepDone : Int)
  | others (leases : Leases) (gpus : GpuLeases) (events : EventLog)
    (proposals : List (PendingProposal γ))
  | reconcile (pass : ReconcilePass)

def repairStep (py : Conversions γ) (sql : SqlText) (s : RepairState γ) :
    RepairOp γ -> RepairState γ
  | .registry op =>
    { s with stores.tasks := op.write s.stores.tasks }
  | .round call =>
    { s with stores.store := call.after s.stores.store }
  | .prune keepDone =>
    { stores := { s.stores with tasks := (pruneTasks s.stores.tasks keepDone).snd }
      pruned := s.stores.tasks.rows.filter (prunesTask s.stores.tasks keepDone) ++ s.pruned }
  | .others leases gpus events proposals =>
    { s with stores := { s.stores with
        store := { s.stores.store with leases := leases }
        gpus := gpus
        events := events
        proposals := proposals } }
  | .reconcile pass =>
    { s with stores := (Reconciler.run py sql pass s.stores).fst }

def repairMachine (py : Conversions γ) (sql : SqlText) : Machine (RepairState γ) (RepairOp γ) where
  init s := s.stores.tasks = Table.empty ∧ s.stores.store.rounds = Table.empty ∧ s.pruned = []
  step s op := some (repairStep py sql s op)

section

variable (s : RepairState γ)

def RepairState.lastRow (taskId : String) : Option TaskRow :=
  (s.stores.tasks.find? taskId).or (s.pruned.find? (fun row => row.taskId = taskId))

def RowKept (taskId : String) : Prop :=
  (exists row, row ∈ s.stores.tasks ∧ row.taskId = taskId) ∨
    forall row, row ∈ s.pruned -> row.taskId ≠ taskId

/-- A prune leaves the holders of open rounds their rows, and no round is given
to a task that has lost its row. -/
def SparesHolders : RepairOp γ -> Prop
  | .prune keepDone => forall round, round ∈ s.stores.store.rounds ->
    round.status = .open -> forall row, row ∈ s.stores.tasks ->
    row.taskId = round.holderTaskId -> prunesTask s.stores.tasks keepDone row = false
  | .round (.openRound _ _ holderTaskId _ _) => RowKept s holderTaskId
  | .round (.handoff _ _ newHolderTaskId _) => RowKept s newHolderTaskId
  | _ => True

def HoldersKept : Prop :=
  forall round, round ∈ s.stores.store.rounds -> round.status = .open ->
    RowKept s round.holderTaskId

end

theorem RowKept.mem_of_lastRow {s : RepairState γ} {taskId : String}
    (h : RowKept s taskId) (hlast : s.lastRow taskId = some row) : row ∈ s.stores.tasks := by
  unfold RepairState.lastRow at hlast
  cases hfound : s.stores.tasks.find? taskId with
  | some found =>
    rw [hfound] at hlast
    cases hlast
    exact (Table.find?_eq_some.mp hfound).left
  | none =>
    rw [hfound] at hlast
    have hpruned := List.mem_of_find?_eq_some hlast
    have hid : row.taskId = taskId := by simpa using List.find?_some hlast
    rcases h with ⟨old, hold, holdId⟩ | hnever
    · exact absurd holdId (Table.find?_eq_none.mp hfound old hold)
    · exact absurd hid (hnever row hpruned)

theorem RowKept.step {s t : RepairState γ} {taskId : String}
    (h : RowKept s taskId) (hpruned : t.pruned = s.pruned)
    (hids : forall row, row ∈ s.stores.tasks ->
      exists new, new ∈ t.stores.tasks ∧ new.taskId = row.taskId) : RowKept t taskId := by
  rcases h with ⟨row, hrow, hid⟩ | hnever
  · rcases hids row hrow with ⟨new, hnew, hnewId⟩
    exact Or.inl ⟨new, hnew, hnewId.trans hid⟩
  · apply Or.inr
    rw [hpruned]
    exact hnever

theorem ids_write (tasks : Tasks) (op : RegistryOp) (hrow : row ∈ tasks) :
    exists new, new ∈ op.write tasks ∧ new.taskId = row.taskId := by
  cases (writeEffect tasks op).left with
  | rewrites h =>
    rcases h.of_old row hrow with ⟨new, hnew, hid, _⟩
    exact ⟨new, hnew, hid⟩
  | inserts h _ _ _ _ _ =>
    refine ⟨row, ?_, rfl⟩
    rw [← Table.mem_rows, h.rows]
    exact List.mem_append_left _ hrow

/-!
## Holders along a run
-/

variable {held : Round}

section

variable (hstill : round.status = .open)

include hstill

theorem holder_swapped {db : RoundDb} {current : Round} {move : RoundMove}
    {request : RoundRequest} (hcurrent : current ∈ db.rounds) (hopen : current.status = .open)
    (hround : round ∈ (swapped db held current move request).rounds) :
    (exists old, old ∈ db.rounds ∧ old.status = .open ∧ old.holderTaskId = round.holderTaskId) ∨
    exists leaseSec, move = .handoff round.holderTaskId leaseSec := by
  rcases (mem_swapped_rounds hcurrent).mp hround with rfl | ⟨hold, _⟩
  · cases move with
    | renew leaseSec => exact Or.inl ⟨current, hcurrent, hopen, rfl⟩
    | handoff newHolder leaseSec => exact Or.inr ⟨leaseSec, rfl⟩
    | settle outcome => cases hstill
  · exact Or.inl ⟨round, hold, hstill, rfl⟩

theorem holder_swap {db : RoundDb} {move : RoundMove} {request : RoundRequest}
    (hround : round ∈ (swap db held move request).snd.rounds) :
    (exists old, old ∈ db.rounds ∧ old.status = .open ∧ old.holderTaskId = round.holderTaskId) ∨
    exists leaseSec, move = .handoff round.holderTaskId leaseSec := by
  rcases swap_cases db held move request with
    ⟨current, hcurrent, hnames, hafter⟩ | ⟨event, _, hafter⟩
  · rw [hafter] at hround
    exact holder_swapped hstill hcurrent hnames.isOpen hround
  · rw [hafter] at hround
    exact Or.inl ⟨round, hround, hstill, rfl⟩

def HolderFrom (s : ReconcileState γ) (taskId : String) : Prop :=
  (exists old, old ∈ s.store.rounds ∧ old.status = .open ∧ old.holderTaskId = taskId) ∨
  exists row, row ∈ s.tasks ∧ row.taskId = taskId

theorem holder_advanceOrExpire (h : advanceOrExpire py nowUnix s held = some t)
    (hround : round ∈ t.store.rounds) : HolderFrom s round.holderTaskId := by
  revert h
  fun_cases advanceOrExpire py nowUnix s held with (intro h; cases h)
  | case4 _ _ _ _ next hnext =>
    rcases holder_swap hstill hround with hold | ⟨leaseSec, hmove⟩
    · exact Or.inl hold
    · injection hmove with hmove _
      have hmem := List.mem_of_find?_eq_some hnext
      rcases List.mem_append.mp hmem with hqueued | hrunning
      · exact Or.inr ⟨next, (mem_queued.mp hqueued).left, hmove⟩
      · exact Or.inr ⟨next, (mem_running.mp hrunning).left, hmove⟩
  | case8 =>
    rcases expire_eq nowUnix s held "holder_terminal_without_result" with ⟨report, heq⟩
    rcases holder_swap hstill hround with hold | ⟨_, hmove⟩
    · exact Or.inl hold
    · cases hmove
  | _ => exact Or.inl ⟨round, hround, hstill, rfl⟩

theorem holder_resolveRounds
    (hround : round ∈ (resolveRounds py nowUnix rounds s).fst.store.rounds) :
    HolderFrom s round.holderTaskId := by
  induction rounds generalizing s with
  | nil => exact Or.inl ⟨round, hround, hstill, rfl⟩
  | cons first rest ih =>
    unfold resolveRounds at hround
    split at hround
    · exact Or.inl ⟨round, hround, hstill, rfl⟩
    · rename_i next hnext
      rcases ih hround with ⟨mid, hmid, hmidOpen, hmidHolder⟩ | htask
      · rw [← hmidHolder]
        exact holder_advanceOrExpire hmidOpen hnext hmid
      · rw [(touches_advanceOrExpire hnext).tasks] at htask
        exact Or.inr htask

theorem holder_run (hround : round ∈ (Reconciler.run py sql pass s).fst.store.rounds) :
    HolderFrom (sweep sql pass s) round.holderTaskId := by
  unfold Reconciler.run at hround
  split at hround
  · exact Or.inl ⟨round, hround, hstill, rfl⟩
  · exact holder_resolveRounds hstill hround

end

theorem tasks_resolveRounds (rounds : List Round) (s : ReconcileState γ) :
    (resolveRounds py nowUnix rounds s).fst.tasks = s.tasks := by
  induction rounds generalizing s with
  | nil => rfl
  | cons first rest ih =>
    unfold resolveRounds
    split
    · rfl
    · rename_i next hnext
      rw [ih next]
      exact (touches_advanceOrExpire hnext).tasks

theorem tasks_run (py : Conversions γ) (sql : SqlText) (pass : ReconcilePass)
    (s : ReconcileState γ) :
    (Reconciler.run py sql pass s).fst.tasks = (sweep sql pass s).tasks := by
  unfold Reconciler.run
  split
  · rfl
  · exact tasks_resolveRounds _ _

variable {s : RepairState γ}

theorem holdersKept_round {call : RoundCall} (hs : HoldersKept s)
    (hspares : SparesHolders s (.round call)) :
    HoldersKept (repairStep py sql s (.round call)) := by
  intro round hround hopen
  have hkept : RowKept s round.holderTaskId := by
    have heffect := call_effect s.stores.store call
    change round ∈ (call.after s.stores.store).rounds at hround
    generalize call.after s.stores.store = next at hround heffect
    cases heffect with
    | opened hfree hinsert =>
      rcases (Table.mem_insertNew hinsert).mp hround with rfl | hold
      · exact hspares
      · exact absurd hopen (hfree round hold)
    | swapped hpresents hcurrent hnames =>
      rcases holder_swapped hopen hcurrent hnames.isOpen hround with
        ⟨old, hold, holdOpen, holder⟩ | ⟨leaseSec, rfl⟩
      · rw [← holder]
        exact hs old hold holdOpen
      · cases hpresents
        exact hspares
    | _ => exact hs round hround hopen
  exact hkept.step rfl (fun row hrow => ⟨row, hrow, rfl⟩)

theorem holdersKept_prune {keepDone : Int} (hs : HoldersKept s)
    (hspares : SparesHolders s (.prune keepDone)) :
    HoldersKept (repairStep py sql s (.prune keepDone)) := by
  intro round hround hopen
  rcases hs round hround hopen with ⟨row, hrow, hid⟩ | hnever
  · have hspared := hspares round hround hopen row hrow hid
    exact Or.inl ⟨row, Table.mem_deleteWhere.mpr ⟨hrow, hspared⟩, hid⟩
  · apply Or.inr
    intro row hrow hid
    rcases List.mem_append.mp hrow with hdeleted | hold
    · rcases List.mem_filter.mp hdeleted with ⟨hmem, hprunes⟩
      rw [hspares round hround hopen row hmem hid] at hprunes
      cases hprunes
    · exact hnever row hold hid

theorem holdersKept_reconcile (hs : HoldersKept s) :
    HoldersKept (repairStep py sql s (.reconcile pass)) := by
  intro round hround hopen
  have hcalms := calms_sweep sql pass s.stores
  have hids : forall row, row ∈ s.stores.tasks -> exists new,
      new ∈ (Reconciler.run py sql pass s.stores).fst.tasks ∧ new.taskId = row.taskId := by
    intro row hrow
    rw [tasks_run]
    exact hcalms.kept row hrow
  rcases holder_run hopen hround with ⟨old, hold, holdOpen, holder⟩ | ⟨row, hrow, hid⟩
  · rw [hcalms.rounds] at hold
    rw [← holder]
    exact (hs old hold holdOpen).step rfl hids
  · apply Or.inl
    refine ⟨row, ?_, hid⟩
    show row ∈ (Reconciler.run py sql pass s.stores).fst.tasks
    rw [tasks_run]
    exact hrow

theorem holdersKept_step {op : RepairOp γ} (hs : HoldersKept s) (hspares : SparesHolders s op) :
    HoldersKept (repairStep py sql s op) := by
  cases op with
  | registry op =>
    intro round hround hopen
    exact (hs round hround hopen).step rfl (fun row hrow => ids_write s.stores.tasks op hrow)
  | round call => exact holdersKept_round hs hspares
  | prune keepDone => exact holdersKept_prune hs hspares
  | others leases gpus events proposals =>
    intro round hround hopen
    exact (hs round hround hopen).step rfl (fun row hrow => ⟨row, hrow, rfl⟩)
  | reconcile pass => exact holdersKept_reconcile hs

theorem holdersKept (h : (repairMachine py sql).ReachableWhere SparesHolders s) :
    HoldersKept s := by
  refine h.invariant ?_ ?_
  · intro start hinit round hround
    rw [hinit.right.left] at hround
    exact absurd hround (Table.not_mem_empty round)
  · intro s op t hs hspares hstep
    injection hstep with hstep
    rw [← hstep]
    exact holdersKept_step hs hspares

/-!
## The next pass
-/

/-- The next pass settles a due round exactly if the holder still has its row,
the proposals it does not deny have readable `params`, and it meets no database
error; and the row is there when no prune took it from an open round. -/
theorem reconcile_settles_iff {py : Conversions γ} (sql : SqlText)
    {s : RepairState γ} {pass : ReconcilePass} {round : Round} {holder : TaskRow}
    (hholder : s.lastRow round.holderTaskId = some holder)
    (hdue : Due py pass.nowUnix s.stores round holder) :
    (SettledExpired (Reconciler.run py sql pass s.stores).fst round.roundId <->
      holder ∈ s.stores.tasks ∧ ReadableParams (sweep sql pass s.stores) ∧
        pass.faults .resolveOpenRounds = false) ∧
    ((repairMachine py sql).ReachableWhere SparesHolders s -> holder ∈ s.stores.tasks) := by
  constructor
  · apply run_settles_iff hdue
    unfold RepairState.lastRow at hholder
    cases hfound : s.stores.tasks.find? round.holderTaskId with
    | none => exact Or.inl rfl
    | some found =>
      rw [hfound] at hholder
      cases hholder
      exact Or.inr (Table.find?_eq_some.mp hfound).left
  · intro hreach
    exact (holdersKept hreach round hdue.mem hdue.isOpen).mem_of_lastRow hholder

end

def endedTask : TaskRow :=
  moved (moved (queuedTask exploreSpec "t" ⟨0⟩ []) .running [] ⟨1⟩) .succeeded [] ⟨2⟩

def openRequest : RoundRequest where
  requestId := "open"
  nowUnix := 0

def heldRound : Round :=
  openedRound "r" openRequest "t" 60

def emptyStores : ReconcileState Unit where
  tasks := Table.empty
  store := { rounds := Table.empty, leases := Table.empty, outbox := [] }
  gpus := Table.empty
  events := EventLog.empty
  proposals := []

def finishedTrace : List (RepairOp Unit) :=
  [.registry (.create exploreSpec "t" ⟨0⟩), .round (.openRound "r" openRequest "t" 60 .absent),
    .registry (.transition "t" .running [] ⟨1⟩), .registry (.transition "t" .succeeded [] ⟨2⟩)]

def finishedState : RepairState Unit where
  stores :=
    { emptyStores with
      tasks := { rows := [endedTask], unique := by decide }
      store :=
        { rounds := { rows := [heldRound], unique := by decide }
          leases := placeLane Table.empty heldRound
          outbox := [(openAttempt "r" openRequest "t").appliedEvent heldRound false] } }
  pruned := []

def prunedState : RepairState Unit where
  stores := { finishedState.stores with tasks := Table.empty }
  pruned := [endedTask]

def quietPass : ReconcilePass where
  nowUnix := 1000
  failedAt := ⟨1000000000⟩
  taskProbe _ := { localScope := "", pidAlive := fun _ => true }
  leaseProbe _ := { localScope := "", pidAlive := fun _ => true }
  stamps msgId := (msgId, ⟨1000000000⟩)
  faults _ := false

theorem finished_run (py : Conversions Unit) (sql : SqlText) :
    (repairMachine py sql).Run SparesHolders
      { stores := emptyStores, pruned := [] } finishedTrace finishedState := by
  have hnever : RowKept (repairStep py sql { stores := emptyStores, pruned := [] }
      (.registry (.create exploreSpec "t" ⟨0⟩))) "t" :=
    Or.inr nofun
  exact .cons trivial rfl (.cons hnever rfl (.cons trivial rfl (.cons trivial rfl (.nil _))))

theorem heldRound_due {py : Conversions Unit} {s : ReconcileState Unit}
    (hstore : s.store = finishedState.stores.store) (hgpus : s.gpus = Table.empty)
    (htasks : forall task, task ∈ s.tasks -> task = endedTask)
    (hproposals : s.proposals = []) : Due py quietPass.nowUnix s heldRound endedTask where
  mem := by
    rw [hstore]
    exact List.mem_cons_self
  isOpen := rfl
  isHolder := rfl
  observed := by decide
  noLane row hrow _ := by
    rw [hstore] at hrow
    revert row
    decide
  noGpu row hrow := by
    rw [hgpus] at hrow
    exact absurd hrow (Table.not_mem_empty row)
  noSuccessor task htask hlive := by
    rw [htasks task htask] at hlive
    cases hlive
  noVerdictOwed pending hpending := by
    rw [hproposals] at hpending
    cases hpending
  capPassed := by decide +kernel

theorem readableParams_quiet {sql : SqlText} {s : ReconcileState Unit}
    (hproposals : s.proposals = []) : ReadableParams (sweep sql quietPass s) := by
  intro pending hpending
  have hold := (calms_sweep sql quietPass s).proposals pending hpending
  rw [hproposals] at hold
  cases hold

/-- While the holder's row is there the round is settled. -/
theorem reconcile_settles_finished :
    exists (trace : List (RepairOp Unit)) (s : RepairState Unit),
      forall (py : Conversions Unit) (sql : SqlText),
        (repairMachine py sql).Run SparesHolders { stores := emptyStores, pruned := [] } trace s ∧
        s.lastRow heldRound.holderTaskId = some endedTask ∧
        Due py quietPass.nowUnix s.stores heldRound endedTask ∧
        SettledExpired (Reconciler.run py sql quietPass s.stores).fst "r" := by
  refine ⟨finishedTrace, finishedState, ?_⟩
  intro py sql
  have hdue : Due py quietPass.nowUnix finishedState.stores heldRound endedTask :=
    heldRound_due rfl rfl (fun task htask => List.mem_singleton.mp htask) rfl
  have hsettles := reconcile_settles_iff sql rfl hdue
  refine ⟨finished_run py sql, rfl, hdue, hsettles.left.mpr ⟨?_, ?_, rfl⟩⟩
  · exact hsettles.right ⟨_, _, ⟨rfl, rfl, rfl⟩, finished_run py sql⟩
  · exact readableParams_quiet rfl

/-- Once the holder's row is pruned no later pass settles the round. -/
theorem reconcile_leaves_pruned :
    exists (trace : List (RepairOp Unit)) (s : RepairState Unit),
      forall (py : Conversions Unit) (sql : SqlText),
        (repairMachine py sql).Run Machine.Always { stores := emptyStores, pruned := [] } trace s ∧
        s.lastRow heldRound.holderTaskId = some endedTask ∧
        Due py quietPass.nowUnix s.stores heldRound endedTask ∧
        ¬ SettledExpired (Reconciler.run py sql quietPass s.stores).fst "r" := by
  refine ⟨finishedTrace ++ [.prune 0], prunedState, ?_⟩
  intro py sql
  have hdue : Due py quietPass.nowUnix prunedState.stores heldRound endedTask :=
    heldRound_due rfl rfl (fun task htask => absurd htask (Table.not_mem_empty task)) rfl
  have hpruned : (repairMachine py sql).Run Machine.Always finishedState [.prune 0] prunedState :=
    .cons trivial rfl (.nil _)
  refine ⟨?_, rfl, hdue, ?_⟩
  · exact ((finished_run py sql).mono (fun _ _ _ => trivial)).append hpruned
  · intro hsettled
    have hrow := ((run_settles_iff hdue (Or.inl rfl)).mp hsettled).left
    exact Table.not_mem_empty endedTask hrow

end Bringup
end Hyperloom
