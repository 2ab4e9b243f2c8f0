import Hyperloom.Library.Machine
import Hyperloom.State.TaskCreation

/-!
# Task histories

Every operation that writes a task's row also writes its history, and the
progress notes are pruned as they come.  The machine below runs the operations
in any order and keeps, beside the table, what a reader of the histories should
find in them: the state changes of every task and the notes it was given.
-/

namespace Hyperloom
namespace State

open Library Storage Bus

/-!
## Entries of a history
-/

def HistoryEntry.move? : HistoryEntry -> Option (TaskState × TaskState)
  | .moved source target _ _ => some (source, target)
  | .dispatch _ _ _ => none
  | .completion _ _ => none
  | .progress _ _ => none
  | .other _ => none

variable (history : List HistoryEntry)

def movesOf : List (TaskState × TaskState) :=
  history.filterMap HistoryEntry.move?

def notesOf : List HistoryEntry := history.filter isProgressNote

variable (notes : List HistoryEntry)

def newestNotes : List HistoryEntry :=
  notes.drop (notes.length - maxProgressNotes)

/-- A path of `TRANSITIONS`: every change leaves the state the one before it
entered. -/
inductive StatePath : TaskState -> List (TaskState × TaskState) -> TaskState -> Prop where
  | nil (s : TaskState) : StatePath s [] s
  | cons {s t u : TaskState} {rest : List (TaskState × TaskState)} :
    t ∈ s.transitions -> StatePath t rest u -> StatePath s ((s, t) :: rest) u

theorem StatePath.snoc {s t u : TaskState}
    {moves : List (TaskState × TaskState)} (h : StatePath s moves t)
    (hu : u ∈ t.transitions) : StatePath s (moves ++ [(t, u)]) u := by
  induction h with
  | nil s => exact StatePath.cons hu (StatePath.nil u)
  | cons hstep _ ih => exact StatePath.cons hstep (ih hu)

variable (first second : List HistoryEntry)

theorem movesOf_append : movesOf (first ++ second) = movesOf first ++ movesOf second :=
  List.filterMap_append

theorem notesOf_append : notesOf (first ++ second) = notesOf first ++ notesOf second :=
  List.filter_append first second

theorem move?_of_isProgressNote {entry : HistoryEntry}
    (h : isProgressNote entry = true) : HistoryEntry.move? entry = none := by
  cases entry with
  | moved source target ts evidence => cases h
  | _ => rfl

/-!
## Pruning
-/

theorem movesOf_skipNotes (surplus : Nat) (history : List HistoryEntry) :
    movesOf (skipNotes surplus history) = movesOf history := by
  induction history generalizing surplus with
  | nil => rfl
  | cons entry rest ih =>
    rw [skipNotes]
    split
    · rename_i hskip
      rw [ih]
      exact (List.filterMap_cons_none (move?_of_isProgressNote hskip.right)).symm
    · rw [← List.singleton_append, movesOf_append, ih, ← movesOf_append, List.singleton_append]

theorem notesOf_skipNotes (surplus : Nat) (history : List HistoryEntry) :
    notesOf (skipNotes surplus history) = (notesOf history).drop surplus := by
  induction history generalizing surplus with
  | nil =>
    exact List.drop_nil.symm
  | cons entry rest ih =>
    rw [skipNotes]
    by_cases hnote : isProgressNote entry = true
    · have hkept : notesOf (entry :: rest) = entry :: notesOf rest := List.filter_cons_of_pos hnote
      cases surplus with
      | zero =>
        rw [hkept]
        have hrest := ih 0
        rw [List.drop_zero] at hrest
        rw [← hrest]
        exact List.filter_cons_of_pos hnote
      | succ surplus =>
        rw [if_pos ⟨Nat.succ_pos surplus, hnote⟩, hkept]
        exact ih surplus
    · have hkept : notesOf (entry :: rest) = notesOf rest := List.filter_cons_of_neg hnote
      rw [if_neg (fun h => hnote h.right), hkept, ← ih surplus]
      exact List.filter_cons_of_neg hnote

theorem movesOf_dropOldestProgressNotes (keep : Nat) :
    movesOf (dropOldestProgressNotes history keep) = movesOf history := by
  unfold dropOldestProgressNotes
  split
  · rfl
  · exact movesOf_skipNotes _ history

theorem notesOf_dropOldestProgressNotes :
    notesOf (dropOldestProgressNotes history maxProgressNotes) = newestNotes (notesOf history) := by
  have hcount : history.countP isProgressNote = (notesOf history).length :=
    List.countP_eq_length_filter
  unfold dropOldestProgressNotes newestNotes
  rw [hcount]
  split
  · rename_i hfew
    rw [Nat.sub_eq_zero_of_le hfew, List.drop_zero]
  · exact notesOf_skipNotes _ history

theorem length_newestNotes : (newestNotes notes).length ≤ maxProgressNotes := by
  unfold newestNotes
  rw [List.length_drop]
  lia

/-- Pruning as the notes come keeps what pruning at the end would keep. -/
theorem newestNotes_append (entry : HistoryEntry) :
    newestNotes (newestNotes notes ++ [entry]) = newestNotes (notes ++ [entry]) := by
  unfold newestNotes
  by_cases hfew : notes.length < maxProgressNotes
  · rw [Nat.sub_eq_zero_of_le (Nat.le_of_lt hfew), List.drop_zero]
  · have hpos : 0 < maxProgressNotes := by decide
    have hkept : (notes.drop (notes.length - maxProgressNotes)).length = maxProgressNotes := by
      rw [List.length_drop]
      lia
    rw [List.length_append, List.length_append, hkept, List.length_singleton,
      Nat.add_sub_cancel_left, List.drop_append_of_le_length (by lia),
      List.drop_drop, List.drop_append_of_le_length (by lia)]
    congr 2
    lia

/-!
## The operations
-/

inductive RegistryOp where
  | create (spec : TaskSpec) (uuid : String) (now : Iso)
  | transition (taskId : String) (newState : TaskState) (evidence : Evidence) (now : Iso)
  | recordProgress (taskId : String) (note : Evidence) (now : Iso)
  | appendCompletionEvidence (taskId : String) (evidence : Evidence) (now : Iso)
  | extendLease (taskId : String) (extraSec : Int)
  | cancelFamily (familyKinds : List String) (reason : String)
    (excludeTaskIds : List String) (now : Iso)
  | cancelIfQueued (taskId kind reason : String) (now : Iso)
  | cancelQueued (allowedKinds : List String) (reason : String) (now : Iso)
  | reclaimDeadRunning (leases : Leases) (probe : LeaseRow -> Probe) (reason : String) (now : Iso)

/-- The table after an operation; one that raises is rolled back. -/
def RegistryOp.write (tasks : Tasks) : RegistryOp -> Tasks
  | .create spec uuid now =>
    match insertQueuedTask tasks spec uuid now with
    | .ok (_, after) => after
    | .error _ => tasks
  | .transition taskId newState evidence now =>
    match State.transition tasks taskId newState evidence now with
    | .ok after => after
    | .error _ => tasks
  | .recordProgress taskId note now => State.recordProgress tasks taskId note now
  | .appendCompletionEvidence taskId evidence now =>
    match State.appendCompletionEvidence tasks taskId evidence now with
    | .ok after => after
    | .error _ => tasks
  | .extendLease taskId extraSec =>
    match State.extendLease tasks taskId extraSec with
    | .ok (_, after) => after
    | .error _ => tasks
  | .cancelFamily familyKinds reason excludeTaskIds now =>
    (State.cancelFamily tasks familyKinds reason excludeTaskIds now).snd
  | .cancelIfQueued taskId kind reason now =>
    (State.cancelIfQueued tasks taskId kind reason now).snd
  | .cancelQueued allowedKinds reason now =>
    (State.cancelQueued tasks allowedKinds reason now).snd
  | .reclaimDeadRunning leases probe reason now =>
    (State.reclaimDeadRunning tasks leases probe reason now).snd

variable (taskId : String)

def RegistryOp.given : RegistryOp -> List HistoryEntry
  | .recordProgress noted note now =>
    if noted = taskId then [.progress note now] else []
  | _ => []

def changeOf (before after : Option TaskRow) : List (TaskState × TaskState) :=
  match before, after with
  | some old, some new =>
    if old.state = new.state then [] else [(old.state, new.state)]
  | _, _ => []

/-- The table, the state changes every task went through, and the notes every
task was given. -/
structure RegistryLog where
  tasks : Tasks
  changes : String -> List (TaskState × TaskState)
  notes : String -> List HistoryEntry

variable (s : RegistryLog) (op : RegistryOp)

def registryStep : RegistryLog where
  tasks := op.write s.tasks
  changes taskId := s.changes taskId ++
    changeOf (s.tasks.find? taskId) ((op.write s.tasks).find? taskId)
  notes taskId := s.notes taskId ++ if (s.tasks.find? taskId).isSome then op.given taskId else []

theorem registryStep_changes : (registryStep s op).changes taskId = s.changes taskId ++
      changeOf (s.tasks.find? taskId) ((op.write s.tasks).find? taskId) :=
  rfl

theorem registryStep_notes : (registryStep s op).notes taskId = s.notes taskId ++
      if (s.tasks.find? taskId).isSome then op.given taskId else [] :=
  rfl

def registryMachine : Machine RegistryLog RegistryOp where
  init s := s.tasks = Table.empty ∧ s.changes = (fun _ => []) ∧ s.notes = fun _ => []
  step s op := some (registryStep s op)

/-!
## What an operation does to a row
-/

/-- What may happen to a row, with the notes it is given. -/
inductive RowEffect (old : TaskRow) : TaskRow -> List HistoryEntry -> Prop where
  | keeps {new : TaskRow} : new.state = old.state ->
    new.history = old.history -> RowEffect old new []
  | moves {newState : TaskState} {evidence : Evidence} {now : Iso} :
    newState ∈ old.state.transitions -> RowEffect old (moved old newState evidence now) []
  | completes (evidence : Evidence) (now : Iso) :
    RowEffect old { old with history := old.history ++ [.completion now evidence] } []
  | notes (note : Evidence) (now : Iso) : RowEffect old (noted old note now) [.progress note now]

structure Rewrites (tasks after : Tasks) (given : String -> List HistoryEntry) : Prop where
  of_new : forall new, new ∈ after -> exists old, old ∈ tasks ∧
    old.taskId = new.taskId ∧ RowEffect old new (given old.taskId)
  of_old : forall old, old ∈ tasks -> exists new, new ∈ after ∧
    new.taskId = old.taskId ∧ RowEffect old new (given old.taskId)

variable {tasks : Tasks} {p : TaskRow -> Bool} {f : TaskRow -> TaskRow}
  {hf : forall row, (f row).taskId = row.taskId}

/-- No operation takes an idempotency key from the table. -/
def KeepsKeys (tasks after : Tasks) : Prop :=
  forall old, old ∈ tasks -> exists new, new ∈ after ∧ new.idempotencyKey = old.idempotencyKey

theorem KeepsKeys.refl (tasks : Tasks) : KeepsKeys tasks tasks := by
  intro old hold
  exact ⟨old, hold, rfl⟩

theorem keepsKeys_updateWhere (hkey : forall row, (f row).idempotencyKey = row.idempotencyKey) :
    KeepsKeys tasks (tasks.updateWhere p f hf) := by
  intro old hold
  cases hp : p old with
  | true =>
    exact ⟨f old, Table.mem_updateWhere.mpr (Or.inr ⟨old, hold, hp, rfl⟩), hkey old⟩
  | false =>
    exact ⟨old, Table.mem_updateWhere.mpr (Or.inl ⟨hold, hp⟩), rfl⟩

theorem rewrites_updateWhere {given : String -> List HistoryEntry}
    (hwrites : forall row, row ∈ tasks -> p row = true -> RowEffect row (f row) (given row.taskId))
    (hskips : forall row, row ∈ tasks -> p row = false -> given row.taskId = [])
    (hkey : forall row, (f row).idempotencyKey = row.idempotencyKey) :
    Rewrites tasks (tasks.updateWhere p f hf) given ∧
      KeepsKeys tasks (tasks.updateWhere p f hf) := by
  have hkept : forall row, row ∈ tasks -> p row = false ->
      RowEffect row row (given row.taskId) := by
    intro row hrow hp
    rw [hskips row hrow hp]
    exact RowEffect.keeps rfl rfl
  refine ⟨⟨?_, ?_⟩, keepsKeys_updateWhere hkey⟩
  · intro new hnew
    rcases Table.mem_updateWhere.mp hnew with ⟨hold, hp⟩ | ⟨old, hold, hp, rfl⟩
    · exact ⟨new, hold, rfl, hkept new hold hp⟩
    · exact ⟨old, hold, (hf old).symm, hwrites old hold hp⟩
  · intro old hold
    cases hp : p old with
    | true =>
      exact ⟨f old, Table.mem_updateWhere.mpr (Or.inr ⟨old, hold, hp, rfl⟩),
        hf old, hwrites old hold hp⟩
    | false =>
      exact ⟨old, Table.mem_updateWhere.mpr (Or.inl ⟨hold, hp⟩), rfl, hkept old hold hp⟩

theorem rewrites_of_selected
    (hwrites : forall row, row ∈ tasks -> p row = true -> RowEffect row (f row) [])
    (hkey : forall row, (f row).idempotencyKey = row.idempotencyKey) :
    Rewrites tasks (tasks.updateWhere p f hf) (fun _ => []) ∧
      KeepsKeys tasks (tasks.updateWhere p f hf) :=
  rewrites_updateWhere hwrites (fun _ _ _ => rfl) hkey

theorem rewrites_refl (tasks : Tasks) :
    Rewrites tasks tasks (fun _ => []) ∧ KeepsKeys tasks tasks := by
  refine ⟨⟨?_, ?_⟩, KeepsKeys.refl tasks⟩
  · intro new hnew
    exact ⟨new, hnew, rfl, RowEffect.keeps rfl rfl⟩
  · intro old hold
    exact ⟨old, hold, rfl, RowEffect.keeps rfl rfl⟩

variable {after : Tasks} {now : Iso} {taskId : String}

theorem rewrites_transition {newState : TaskState} {evidence : Evidence}
    (h : transition tasks taskId newState evidence now = .ok after) :
    Rewrites tasks after (fun _ => []) ∧ KeepsKeys tasks after := by
  rcases transition_ok h with ⟨row, hfound, hallowed, rfl⟩
  rcases Table.find?_eq_some.mp hfound with ⟨hrow, hid⟩
  refine rewrites_of_selected ?_ fun _ => rfl
  intro other hother hp
  have hsame : other = row := Table.eq_of_key_eq hother hrow ((of_decide_eq_true hp).trans hid.symm)
  rw [hsame]
  exact RowEffect.moves hallowed

theorem rewrites_appendCompletionEvidence {evidence : Evidence}
    (h : appendCompletionEvidence tasks taskId evidence now = .ok after) :
    Rewrites tasks after (fun _ => []) ∧ KeepsKeys tasks after := by
  unfold appendCompletionEvidence at h
  split at h
  · cases h
  injection h with h
  rw [← h]
  refine rewrites_of_selected ?_ fun _ => rfl
  intro row _ _
  exact RowEffect.completes evidence now

theorem rewrites_extendLease {extraSec newTtl : Int}
    (h : extendLease tasks taskId extraSec = .ok (newTtl, after)) :
    Rewrites tasks after (fun _ => []) ∧ KeepsKeys tasks after := by
  unfold extendLease at h
  split at h
  · cases h
  split at h
  · cases h
    refine rewrites_of_selected ?_ fun _ => rfl
    intro row _ _
    exact RowEffect.keeps rfl rfl
  · cases h

theorem rewrites_recordProgress (tasks : Tasks) (taskId : String) (note : Evidence) (now : Iso) :
    Rewrites tasks (recordProgress tasks taskId note now)
      (fun other => (RegistryOp.recordProgress taskId note now).given other) ∧
      KeepsKeys tasks (recordProgress tasks taskId note now) := by
  unfold recordProgress Table.updateKey
  refine rewrites_updateWhere ?_ ?_ fun _ => rfl
  · intro row _ hp
    rw [RegistryOp.given, if_pos (of_decide_eq_true hp).symm]
    exact RowEffect.notes note now
  · intro row _ hp
    rw [RegistryOp.given, if_neg]
    exact fun heq => of_decide_eq_false hp heq.symm

theorem rewrites_cancelQueuedRow {reason : String}
    (hp : forall row, p row = true -> row.state = .queued) :
    Rewrites tasks (tasks.updateWhere p (cancelQueuedRow reason now)
      (cancelQueuedRow_taskId reason now)) (fun _ => []) ∧ KeepsKeys tasks
    (tasks.updateWhere p (cancelQueuedRow reason now) (cancelQueuedRow_taskId reason now)) := by
  refine rewrites_of_selected ?_ fun _ => rfl
  intro row _ hrow
  apply RowEffect.moves
  rw [hp row hrow]
  decide

theorem rewrites_reclaimDeadRunning (tasks : Tasks) (leases : Leases)
    (probe : LeaseRow -> Probe) (reason : String) (now : Iso) :
    Rewrites tasks (reclaimDeadRunning tasks leases probe reason now).snd (fun _ => []) ∧
      KeepsKeys tasks (reclaimDeadRunning tasks leases probe reason now).snd := by
  unfold reclaimDeadRunning
  dsimp only
  refine rewrites_of_selected ?_ fun _ => rfl
  intro row _ hrow
  apply RowEffect.moves
  rw [(reclaims_eq_true.mp hrow).left]
  decide

/-- An operation rewrites the rows there are, or adds one that is queued and
has no moves and no notes yet. -/
inductive WriteEffect (tasks : Tasks) (op : RegistryOp) : Tasks -> Prop where
  | rewrites {after : Tasks} : Rewrites tasks after (fun taskId => op.given taskId) ->
    WriteEffect tasks op after
  | inserts {after : Tasks} {spec : TaskSpec} {uuid : String} {task : TaskRow} :
    Inserts tasks spec uuid task after -> task.taskId = spec.newId uuid ->
    task.state = .queued -> movesOf task.history = [] ->
    notesOf task.history = [] -> (forall taskId, op.given taskId = []) -> WriteEffect tasks op after

variable {spec : TaskSpec}

theorem initialHistory_entries {history : List HistoryEntry}
    (h : initialHistory spec now = .ok history) : movesOf history = [] ∧ notesOf history = [] := by
  unfold initialHistory at h
  split at h
  · cases h
    exact ⟨rfl, rfl⟩
  · split at h
    · cases h
    · cases h
      exact ⟨rfl, rfl⟩

variable {uuid : String} {task : TaskRow}

theorem Inserts.keepsKeys (h : Inserts tasks spec uuid task after) : KeepsKeys tasks after := by
  intro old hold
  refine ⟨old, ?_, rfl⟩
  rw [← Table.mem_rows, h.rows]
  exact List.mem_append_left [task] hold

theorem writeEffect_create (h : insertQueuedTask tasks spec uuid now = .ok (task, after)) :
    WriteEffect tasks (.create spec uuid now) after := by
  have hinserts := insertQueuedTask_ok h
  revert h
  fun_cases insertQueuedTask tasks spec uuid now with (intro h; cases h)
  | case4 _ _ history hhistory =>
    rcases initialHistory_entries hhistory with ⟨hmoves, hnotes⟩
    exact WriteEffect.inserts hinserts rfl rfl hmoves hnotes (fun _ => rfl)

theorem writeEffect (tasks : Tasks) (op : RegistryOp) :
    WriteEffect tasks op (op.write tasks) ∧ KeepsKeys tasks (op.write tasks) := by
  have hrefl := rewrites_refl tasks
  cases op with
  | create spec uuid now =>
    rw [RegistryOp.write]
    split
    · rename_i task after h
      exact ⟨writeEffect_create h, (insertQueuedTask_ok h).keepsKeys⟩
    · exact hrefl.imp_left .rewrites
  | transition taskId newState evidence now =>
    rw [RegistryOp.write]
    split
    · rename_i after h
      exact (rewrites_transition h).imp_left .rewrites
    · exact hrefl.imp_left .rewrites
  | recordProgress taskId note now =>
    exact (rewrites_recordProgress tasks taskId note now).imp_left .rewrites
  | appendCompletionEvidence taskId evidence now =>
    rw [RegistryOp.write]
    split
    · rename_i after h
      exact (rewrites_appendCompletionEvidence h).imp_left .rewrites
    · exact hrefl.imp_left .rewrites
  | extendLease taskId extraSec =>
    rw [RegistryOp.write]
    split
    · rename_i newTtl after h
      exact (rewrites_extendLease h).imp_left .rewrites
    · exact hrefl.imp_left .rewrites
  | cancelIfQueued taskId kind reason now =>
    refine (rewrites_cancelQueuedRow ?_).imp_left .rewrites
    intro row hrow
    have hboth := (Bool.and_eq_true_iff.mp hrow).right
    exact of_decide_eq_true (Bool.and_eq_true_iff.mp hboth).right
  | reclaimDeadRunning leases probe reason now =>
    exact (rewrites_reclaimDeadRunning tasks leases probe reason now).imp_left .rewrites
  | _ =>
    refine (rewrites_cancelQueuedRow ?_).imp_left .rewrites
    intro row hrow
    exact of_decide_eq_true (Bool.and_eq_true_iff.mp hrow).left

/-!
## Faithful histories
-/

/-- A history tells all that happened to its task: its from/to entries are the
state changes the task went through, in order, they lead along `TRANSITIONS`
from `queued` to the state it is in, and its notes are the newest it was
given. -/
structure FaithfulHistory (s : RegistryLog) (row : TaskRow) : Prop where
  complete : movesOf row.history = s.changes row.taskId
  path : StatePath .queued (movesOf row.history) row.state
  bounded : (notesOf row.history).length ≤ maxProgressNotes
  newest : notesOf row.history = newestNotes (s.notes row.taskId)

variable {old new : TaskRow} {given : List HistoryEntry}

theorem ne_of_mem_transitions {source target : TaskState}
    (h : target ∈ source.transitions) : source ≠ target := by
  intro heq
  rw [heq] at h
  cases target <;> exact absurd h (by decide)

section

variable (h : RowEffect old new given)

include h

theorem RowEffect.moves_state :
    (new.state = old.state ∧ movesOf new.history = movesOf old.history) ∨
    (new.state ∈ old.state.transitions ∧
      movesOf new.history = movesOf old.history ++ [(old.state, new.state)]) := by
  cases h with
  | keeps hstate hhistory => exact Or.inl ⟨hstate, by rw [hhistory]⟩
  | moves hallowed => exact Or.inr ⟨hallowed, movesOf_append _ _⟩
  | completes evidence now =>
    refine Or.inl ⟨rfl, ?_⟩
    rw [movesOf_append]
    exact List.append_nil _
  | notes note now =>
    refine Or.inl ⟨rfl, ?_⟩
    show movesOf (dropOldestProgressNotes _ maxProgressNotes) = _
    rw [movesOf_dropOldestProgressNotes, movesOf_append]
    exact List.append_nil _

theorem RowEffect.notesOf_new {all : List HistoryEntry}
    (hold : notesOf old.history = newestNotes all) :
    notesOf new.history = newestNotes (all ++ given) := by
  cases h with
  | keeps _ hhistory => rw [hhistory, hold, List.append_nil]
  | moves hallowed =>
    show notesOf (old.history ++ [.moved _ _ _ _]) = _
    rw [notesOf_append, hold, List.append_nil]
    exact List.append_nil _
  | completes evidence now =>
    rw [notesOf_append, hold, List.append_nil]
    exact List.append_nil _
  | notes note now =>
    show notesOf (dropOldestProgressNotes _ maxProgressNotes) = _
    rw [notesOf_dropOldestProgressNotes, notesOf_append, hold]
    exact newestNotes_append all _

/-- The moves of a rewritten row grow by the change between its versions. -/
theorem RowEffect.movesOf_new :
    movesOf new.history = movesOf old.history ++ changeOf (some old) (some new) := by
  rw [changeOf]
  rcases h.moves_state with ⟨hstate, hmoves⟩ | ⟨hallowed, hmoves⟩
  · rw [if_pos hstate.symm, List.append_nil]
    exact hmoves
  · rw [if_neg (ne_of_mem_transitions hallowed)]
    exact hmoves

theorem RowEffect.statePath_new (hpath : StatePath .queued (movesOf old.history) old.state) :
    StatePath .queued (movesOf new.history) new.state := by
  rcases h.moves_state with ⟨hstate, hmoves⟩ | ⟨hallowed, hmoves⟩
  · rw [hstate, hmoves]
    exact hpath
  · rw [hmoves]
    exact hpath.snoc hallowed

theorem RowEffect.state_of_terminal (hterminal : old.state.isTerminal = true) :
    new.state = old.state := by
  rcases h.moves_state with ⟨hstate, _⟩ | ⟨hallowed, _⟩
  · exact hstate
  · rw [List.isEmpty_iff.mp hterminal] at hallowed
    exact absurd hallowed List.not_mem_nil

end

structure RegistryFaithful (s : RegistryLog) : Prop where
  rows : forall row, row ∈ s.tasks -> FaithfulHistory s row
  silent : forall taskId, s.tasks.find? taskId = none -> s.changes taskId = [] ∧ s.notes taskId = []

variable {s : RegistryLog}

theorem faithful_rewrites {op : RegistryOp} (hs : RegistryFaithful s)
    (h : Rewrites s.tasks (op.write s.tasks) (fun taskId => op.given taskId)) :
    RegistryFaithful (registryStep s op) := by
  constructor
  · intro new hnew
    rcases h.of_new new hnew with ⟨old, hold, hid, heffect⟩
    have hfaithful := hs.rows old hold
    have hfoundOld : s.tasks.find? new.taskId = some old := Table.find?_eq_some.mpr ⟨hold, hid⟩
    have hfoundNew : (op.write s.tasks).find? new.taskId = some new :=
      Table.find?_eq_some.mpr ⟨hnew, rfl⟩
    have hnotes : notesOf new.history =
        newestNotes (s.notes new.taskId ++ op.given new.taskId) := by
      rw [← hid]
      exact heffect.notesOf_new hfaithful.newest
    constructor
    · rw [registryStep_changes, hfoundOld, hfoundNew, heffect.movesOf_new, hfaithful.complete, hid]
    · exact heffect.statePath_new hfaithful.path
    · rw [hnotes]
      exact length_newestNotes _
    · rw [registryStep_notes, hfoundOld, Option.isSome_some]
      exact hnotes
  · intro taskId hnone
    have hgone : s.tasks.find? taskId = none := by
      rw [Table.find?_eq_none] at hnone ⊢
      intro old hold hid
      rcases h.of_old old hold with ⟨new, hnew, hsame, _⟩
      exact hnone new hnew (hsame.trans hid)
    rcases hs.silent taskId hgone with ⟨hchanges, hnotes⟩
    constructor
    · rw [registryStep_changes, hchanges, hgone]
      rfl
    · rw [registryStep_notes, hnotes, hgone, Option.isSome_none,
        if_neg Bool.false_ne_true, List.append_nil]

theorem faithful_inserts {op : RegistryOp} (hs : RegistryFaithful s)
    (h : Inserts s.tasks spec uuid task (op.write s.tasks))
    (hid : task.taskId = spec.newId uuid) (hstate : task.state = .queued)
    (hmoves : movesOf task.history = []) (hnotes : notesOf task.history = [])
    (hgiven : forall taskId, op.given taskId = []) : RegistryFaithful (registryStep s op) := by
  have hfree : s.tasks.find? task.taskId = none := by
    rw [Table.find?_eq_none, hid]
    exact h.idFree
  have hmem : forall row, row ∈ op.write s.tasks <-> row ∈ s.tasks ∨ row = task := by
    intro row
    show row ∈ (op.write s.tasks).rows <-> row ∈ s.tasks.rows ∨ row = task
    rw [h.rows, List.mem_append, List.mem_singleton]
  have hquiet : forall taskId, (registryStep s op).notes taskId = s.notes taskId := by
    intro taskId
    rw [registryStep_notes, hgiven taskId, ite_self, List.append_nil]
  have hsame : forall taskId, (registryStep s op).changes taskId = s.changes taskId := by
    intro taskId
    rw [registryStep_changes]
    cases hold : s.tasks.find? taskId with
    | none => exact List.append_nil _
    | some row =>
      rcases Table.find?_eq_some.mp hold with ⟨hrow, hrowId⟩
      have hnew : (op.write s.tasks).find? taskId = some row :=
        Table.find?_eq_some.mpr ⟨(hmem row).mpr (Or.inl hrow), hrowId⟩
      rw [hnew, changeOf, if_pos rfl, List.append_nil]
  constructor
  · intro row hrow
    rcases (hmem row).mp hrow with hold | heq
    · have hfaithful := hs.rows row hold
      exact ⟨(hsame row.taskId).symm ▸ hfaithful.complete, hfaithful.path,
        hfaithful.bounded, (hquiet row.taskId).symm ▸ hfaithful.newest⟩
    · rw [heq]
      rcases hs.silent task.taskId hfree with ⟨hchanges, hnone⟩
      constructor
      · rw [hsame, hchanges, hmoves]
      · rw [hmoves, hstate]
        exact StatePath.nil _
      · rw [hnotes]
        exact Nat.zero_le _
      · rw [hquiet, hnone, hnotes]
        rfl
  · intro taskId hnone
    rw [hsame, hquiet]
    apply hs.silent
    rw [Table.find?_eq_none] at hnone ⊢
    intro row hrow
    exact hnone row ((hmem row).mpr (Or.inl hrow))

theorem faithful_step (hs : RegistryFaithful s) : RegistryFaithful (registryStep s op) := by
  have heffect := (writeEffect s.tasks op).left
  generalize hafter : op.write s.tasks = after at heffect
  cases heffect with
  | rewrites h =>
    rw [← hafter] at h
    exact faithful_rewrites hs h
  | inserts h hid hstate hmoves hnotes hgiven =>
    rw [← hafter] at h
    exact faithful_inserts hs h hid hstate hmoves hnotes hgiven

theorem faithful_reachable (hs : registryMachine.Reachable s) : RegistryFaithful s := by
  apply hs.invariant
  · intro start hstart
    rcases hstart with ⟨htasks, hchanges, hnotes⟩
    constructor
    · intro row hrow
      rw [htasks] at hrow
      exact absurd hrow (Table.not_mem_empty row)
    · intro taskId _
      rw [hchanges, hnotes]
      exact ⟨rfl, rfl⟩
  · intro s op t hs _ hstep
    rw [← Option.some.inj hstep]
    exact faithful_step op hs

/-!
## Terminal tasks
-/

def StaysTerminal (s t : RegistryLog) : Prop :=
  forall row, row ∈ s.tasks -> row.state.isTerminal = true ->
    exists later, later ∈ t.tasks ∧ later.taskId = row.taskId ∧ later.state = row.state

theorem staysTerminal_step (s : RegistryLog) (op : RegistryOp) :
    StaysTerminal s (registryStep s op) := by
  intro row hrow hterminal
  cases (writeEffect s.tasks op).left with
  | rewrites h =>
    rcases h.of_old row hrow with ⟨new, hnew, hid, heffect⟩
    exact ⟨new, hnew, hid, heffect.state_of_terminal hterminal⟩
  | inserts h =>
    refine ⟨row, ?_, rfl, rfl⟩
    show row ∈ (op.write s.tasks).rows
    rw [h.rows]
    exact List.mem_append_left _ hrow

theorem staysTerminal_run {t : RegistryLog} {trace : List RegistryOp}
    (h : registryMachine.Run Machine.Always s trace t) : StaysTerminal s t := by
  induction h with
  | nil s => exact fun row hrow _ => ⟨row, hrow, rfl, rfl⟩
  | cons _ hstep _ ih =>
    intro row hrow hterminal
    rcases staysTerminal_step _ _ row hrow hterminal with ⟨next, hnext, hid, hstate⟩
    rw [← Option.some.inj hstep] at ih
    rcases ih next hnext (by rw [hstate]; exact hterminal) with
      ⟨later, hlater, hlaterId, hlaterState⟩
    exact ⟨later, hlater, hlaterId.trans hid, hlaterState.trans hstate⟩

/-- In every state the operations reach, every history is faithful, and the
terminal tasks stay in their states whatever is run next. -/
theorem taskHistory_faithful {s : RegistryLog} (hs : registryMachine.Reachable s) :
    (forall row, row ∈ s.tasks -> FaithfulHistory s row) ∧
    forall trace t, registryMachine.Run Machine.Always s trace t ->
      StaysTerminal s t :=
  ⟨(faithful_reachable hs).rows, fun _ _ hrun => staysTerminal_run hrun⟩

def emptyLog : RegistryLog where
  tasks := Table.empty
  changes _ := []
  notes _ := []

def exploreSpec : TaskSpec where
  kind := "explore"
  idempotencyKey := "k"

theorem taskHistory_faithful_started :
    exists s row, registryMachine.Reachable s ∧ row ∈ s.tasks ∧
      movesOf row.history = [(.queued, .running)] ∧ FaithfulHistory s row := by
  have hs : registryMachine.Reachable
      (registryStep (registryStep emptyLog (.create exploreSpec "t" ⟨0⟩))
        (.transition "t" .running [] ⟨1⟩)) :=
    ⟨emptyLog, _, ⟨rfl, rfl, rfl⟩, .cons trivial rfl (.cons trivial rfl (.nil _))⟩
  have hrow : moved (queuedTask exploreSpec "t" ⟨0⟩ []) .running [] ⟨1⟩ ∈
      (registryStep (registryStep emptyLog (.create exploreSpec "t" ⟨0⟩))
        (.transition "t" .running [] ⟨1⟩)).tasks :=
    List.mem_cons_self
  exact ⟨_, _, hs, hrow, rfl, (taskHistory_faithful hs).left _ hrow⟩

end State
end Hyperloom
