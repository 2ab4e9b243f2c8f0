import Hyperloom.State.TaskRegistry

/-!
# Creating tasks

The row `_insert_queued_task` writes for a spec, the checks it makes first, and
the checks a request for an existing row must pass.
-/

namespace Hyperloom
namespace State

open Library Storage

/-!
## Specifications and errors
-/

structure TaskSpec where
  kind : String
  params : Evidence := []
  idempotencyKey : String
  requiresLanes : Option (List String) := none
  leaseTtlSec : Int := 0
  taskId : Option String := none
  dispatchClass : Option String := none
  dispatchOrigin : Option DispatchOrigin := none

def dispatchClasses : List String := ["llm", "coordinator", "inline"]

/-- What a creation may raise; the last one is SQLite's refusal of a row whose
`task_id` or `idempotency_key` is taken. -/
inductive CreateError where
  | unknownDispatchClass (dispatchClass : String)
  | dispatchMismatch (existing requested : String)
  | originRequired
  | originPhaseRequired
  | originNegative
  | uniqueConstraint
deriving DecidableEq

def validateDispatchClass : Option String -> Except CreateError Unit
  | none => .ok ()
  | some dispatchClass =>
    if dispatchClass ∈ dispatchClasses then .ok ()
    else .error (.unknownDispatchClass dispatchClass)

def validatedDispatchOrigin : Option DispatchOrigin -> Except CreateError DispatchOrigin
  | none => .error .originRequired
  | some origin =>
    if (strip origin.phase).toUpper = "" then .error .originPhaseRequired
    else if origin.macroCycle < 0 ∨ origin.tick < 0 then
      .error .originNegative
    else .ok { origin with phase := (strip origin.phase).toUpper }

/-- The class an entry records; a value that is no text is as unknown as the
empty one. -/
def recordedClass? : HistoryEntry -> Option String
  | .dispatch dispatchClass _ _ => some dispatchClass
  | .other entry =>
    match entry.get? "dispatch_class" with
    | none => none
    | some (.str dispatchClass) => some dispatchClass
    | some _ => some ""
  | .moved _ _ _ _ => none
  | .completion _ _ => none
  | .progress _ _ => none

/-- `task_dispatch_class`: the first class the history records. -/
def taskDispatchClass (task : TaskRow) : Except CreateError (Option String) :=
  match task.history.findSome? recordedClass? with
  | none => .ok none
  | some dispatchClass =>
    match validateDispatchClass (some dispatchClass) with
    | .error e => .error e
    | .ok _ => .ok (some dispatchClass)

def validateDispatchReuse (task : TaskRow) (requested : Option String) : Except CreateError Unit :=
  match validateDispatchClass requested with
  | .error e => .error e
  | .ok _ =>
    match requested with
    | none => .ok ()
    | some requested =>
      match taskDispatchClass task with
      | .error e => .error e
      | .ok none => .ok ()
      | .ok (some existing) =>
        if existing = requested then .ok ()
        else .error (.dispatchMismatch existing requested)

/-!
## The insertion
-/

def initialHistory (spec : TaskSpec) (now : Iso) : Except CreateError (List HistoryEntry) :=
  match spec.dispatchClass with
  | none => .ok []
  | some dispatchClass =>
    match validatedDispatchOrigin spec.dispatchOrigin with
    | .error e => .error e
    | .ok origin => .ok [.dispatch dispatchClass origin now]

/-- `spec.task_id or uuid.uuid4().hex`. -/
def TaskSpec.newId (spec : TaskSpec) (uuid : String) : String :=
  match spec.taskId with
  | none => uuid
  | some taskId => if taskId = "" then uuid else taskId

def queuedTask (spec : TaskSpec) (uuid : String) (now : Iso)
    (history : List HistoryEntry) : TaskRow where
  taskId := spec.newId uuid
  kind := spec.kind
  state := .queued
  params := spec.params
  idempotencyKey := spec.idempotencyKey
  requiresLanes := spec.requiresLanes.getD []
  leaseTtlSec := spec.leaseTtlSec
  history := history
  createdAt := now
  updatedAt := now

variable (tasks : Tasks)

def findByIdempotencyKey (key : String) : Option TaskRow :=
  tasks.rows.find? (fun row => row.idempotencyKey = key)

def insertTask (task : TaskRow) : Except CreateError Tasks :=
  match findByIdempotencyKey tasks task.idempotencyKey with
  | some _ => .error .uniqueConstraint
  | none =>
    match tasks.insertNew task with
    | none => .error .uniqueConstraint
    | some tasks => .ok tasks

def insertQueuedTask (spec : TaskSpec) (uuid : String)
    (now : Iso) : Except CreateError (TaskRow × Tasks) :=
  match validateDispatchClass spec.dispatchClass with
  | .error e => .error e
  | .ok _ =>
    match initialHistory spec now with
    | .error e => .error e
    | .ok history =>
      match insertTask tasks (queuedTask spec uuid now history) with
      | .error e => .error e
      | .ok tasks => .ok (queuedTask spec uuid now history, tasks)

/-!
## What a creation needs
-/

def KnownClass (dispatchClass : Option String) : Prop :=
  forall text, dispatchClass = some text -> text ∈ dispatchClasses

def ValidOrigin (spec : TaskSpec) : Prop :=
  spec.dispatchClass.isSome = true ->
    exists origin, spec.dispatchOrigin = some origin ∧
      (strip origin.phase).toUpper ≠ "" ∧ 0 ≤ origin.macroCycle ∧ 0 ≤ origin.tick

def KeyFree (key : String) : Prop :=
  forall row, row ∈ tasks -> row.idempotencyKey ≠ key

def IdFree (taskId : String) : Prop :=
  forall row, row ∈ tasks -> row.taskId ≠ taskId

theorem validateDispatchClass_ok {dispatchClass : Option String} :
    validateDispatchClass dispatchClass = .ok () <-> KnownClass dispatchClass := by
  cases dispatchClass with
  | none =>
    apply iff_of_true rfl
    intro text h
    cases h
  | some dispatchClass =>
    rw [validateDispatchClass]
    split
    · rename_i hknown
      apply iff_of_true rfl
      intro text h
      cases h
      exact hknown
    · rename_i hunknown
      constructor
      · nofun
      · intro h
        exact absurd (h dispatchClass rfl) hunknown

variable {tasks : Tasks}

theorem findByIdempotencyKey_eq_none {key : String} :
    findByIdempotencyKey tasks key = none <-> KeyFree tasks key := by
  unfold findByIdempotencyKey KeyFree
  simp [Table.mem_rows]

variable {task : TaskRow}

theorem findByIdempotencyKey_eq_some {key : String}
    (h : findByIdempotencyKey tasks key = some task) : task ∈ tasks ∧ task.idempotencyKey = key :=
  ⟨List.mem_of_find?_eq_some h, by simpa using List.find?_some h⟩

theorem validatedDispatchOrigin_ok {origin : Option DispatchOrigin} :
    (exists valid, validatedDispatchOrigin origin = .ok valid) <->
      exists given, origin = some given ∧ (strip given.phase).toUpper ≠ "" ∧
        0 ≤ given.macroCycle ∧ 0 ≤ given.tick := by
  cases origin with
  | none =>
    constructor
    · intro h
      rcases h with ⟨valid, h⟩
      cases h
    · intro h
      rcases h with ⟨given, h, _⟩
      cases h
  | some given =>
    rw [validatedDispatchOrigin]
    constructor
    · intro h
      rcases h with ⟨valid, h⟩
      split at h
      · cases h
      rename_i hphase
      split at h
      · cases h
      rename_i hcounts
      rw [not_or, not_lt, not_lt] at hcounts
      exact ⟨given, rfl, hphase, hcounts⟩
    · intro h
      rcases h with ⟨same, hsame, hphase, hcycle, htick⟩
      cases hsame
      rw [if_neg hphase, if_neg (not_or.mpr ⟨not_lt.mpr hcycle, not_lt.mpr htick⟩)]
      exact ⟨_, rfl⟩

variable {spec : TaskSpec} {now : Iso}

theorem initialHistory_ok :
    (exists history, initialHistory spec now = .ok history) <-> ValidOrigin spec := by
  unfold initialHistory ValidOrigin
  cases hclass : spec.dispatchClass with
  | none =>
    apply iff_of_true ⟨_, rfl⟩
    intro h
    cases h
  | some dispatchClass =>
    rw [Option.isSome_some, eq_self, true_imp_iff, ← validatedDispatchOrigin_ok]
    cases validatedDispatchOrigin spec.dispatchOrigin with
    | error e =>
      constructor
      · intro h
        rcases h with ⟨history, h⟩
        cases h
      · intro h
        rcases h with ⟨valid, h⟩
        cases h
    | ok origin => exact iff_of_true ⟨_, rfl⟩ ⟨_, rfl⟩

theorem recordedClass_initialHistory {history : List HistoryEntry}
    (h : initialHistory spec now = .ok history) :
    history.findSome? recordedClass? = spec.dispatchClass := by
  unfold initialHistory at h
  split at h
  · rename_i hclass
    cases h
    exact hclass.symm
  · rename_i dispatchClass hclass
    split at h
    · cases h
    · cases h
      exact hclass.symm

structure Inserts (tasks : Tasks) (spec : TaskSpec) (uuid : String)
    (task : TaskRow) (after : Tasks) : Prop where
  known : KnownClass spec.dispatchClass
  origin : ValidOrigin spec
  keyFree : KeyFree tasks spec.idempotencyKey
  idFree : IdFree tasks (spec.newId uuid)
  taskKey : task.idempotencyKey = spec.idempotencyKey
  taskClass : task.history.findSome? recordedClass? = spec.dispatchClass
  rows : after.rows = tasks.rows ++ [task]

variable {after : Tasks}

theorem insertTask_ok (h : insertTask tasks task = .ok after) :
    KeyFree tasks task.idempotencyKey ∧ IdFree tasks task.taskId ∧
      after.rows = tasks.rows ++ [task] := by
  revert h
  fun_cases insertTask tasks task with (intro h; cases h)
  | case3 hkey _ hinsert =>
    refine ⟨findByIdempotencyKey_eq_none.mp hkey, ?_, ?_⟩
    · intro row hrow hid
      have hnone := Table.insertNew_eq_none.mpr ⟨row, hrow, hid⟩
      rw [hinsert] at hnone
      cases hnone
    · unfold Table.insertNew at hinsert
      split at hinsert
      · cases hinsert
      · cases hinsert
        rfl

theorem insertTask_of_free {tasks : Tasks} {task : TaskRow}
    (hkey : KeyFree tasks task.idempotencyKey) (hid : IdFree tasks task.taskId) :
    exists after, insertTask tasks task = .ok after := by
  unfold insertTask
  rw [findByIdempotencyKey_eq_none.mpr hkey]
  cases hinsert : tasks.insertNew task with
  | none =>
    rcases Table.insertNew_eq_none.mp hinsert with ⟨row, hrow, htaken⟩
    exact absurd htaken (hid row hrow)
  | some after => exact ⟨after, rfl⟩

theorem insertQueuedTask_ok {uuid : String}
    (h : insertQueuedTask tasks spec uuid now = .ok (task, after)) :
    Inserts tasks spec uuid task after := by
  revert h
  fun_cases insertQueuedTask tasks spec uuid now with (intro h; cases h)
  | case4 _ hclass history hhistory _ hinsert =>
    rcases insertTask_ok hinsert with ⟨hkey, hid, hrows⟩
    exact
      { known := validateDispatchClass_ok.mp hclass
        origin := initialHistory_ok.mp ⟨history, hhistory⟩
        keyFree := hkey
        idFree := hid
        taskKey := rfl
        taskClass := recordedClass_initialHistory hhistory
        rows := hrows }

theorem insertQueuedTask_of_free {tasks : Tasks} {spec : TaskSpec}
    {uuid : String} {now : Iso} (hknown : KnownClass spec.dispatchClass)
    (horigin : ValidOrigin spec) (hkey : KeyFree tasks spec.idempotencyKey)
    (hid : IdFree tasks (spec.newId uuid)) :
    exists task after, insertQueuedTask tasks spec uuid now = .ok (task, after) := by
  unfold insertQueuedTask
  rw [validateDispatchClass_ok.mpr hknown]
  rcases initialHistory_ok.mpr horigin with ⟨history, hhistory⟩
  rw [hhistory]
  have hinsert := @insertTask_of_free tasks (queuedTask spec uuid now history) hkey hid
  rcases hinsert with ⟨after, hinsert⟩
  exact ⟨queuedTask spec uuid now history, after, by simp only [hinsert]⟩

theorem Inserts.find {uuid : String} (h : Inserts tasks spec uuid task after) :
    findByIdempotencyKey after spec.idempotencyKey = some task := by
  unfold findByIdempotencyKey
  rw [h.rows, List.find?_append]
  have hnone := findByIdempotencyKey_eq_none.mpr h.keyFree
  unfold findByIdempotencyKey at hnone
  rw [hnone, Option.none_or, List.find?_cons_of_pos]
  exact decide_eq_true h.taskKey

/-!
## What a read answers
-/

/-- Whether a request for one class may reuse a row that records another. -/
def Reusable (recorded requested : Option String) : Prop :=
  recorded = none ∨ requested = none ∨ recorded = requested

theorem taskDispatchClass_ok {recorded : Option String}
    (hrecorded : task.history.findSome? recordedClass? = recorded)
    (hknown : KnownClass recorded) : taskDispatchClass task = .ok recorded := by
  unfold taskDispatchClass
  rw [hrecorded]
  cases recorded with
  | none => rfl
  | some text => simp only [validateDispatchClass_ok.mpr hknown]

theorem validateDispatchReuse_ok {task : TaskRow} {recorded requested : Option String}
    (hrecorded : task.history.findSome? recordedClass? = recorded) (hknown : KnownClass recorded) :
    validateDispatchReuse task requested = .ok () <->
      KnownClass requested ∧ Reusable recorded requested := by
  unfold validateDispatchReuse
  rw [taskDispatchClass_ok hrecorded hknown, ← validateDispatchClass_ok]
  cases validateDispatchClass requested with
  | error e =>
    constructor
    · nofun
    · intro h
      cases h.left
  | ok _ =>
    rw [eq_self, true_and]
    cases requested with
    | none => exact iff_of_true rfl (Or.inr (Or.inl rfl))
    | some requested =>
      cases recorded with
      | none => exact iff_of_true rfl (Or.inl rfl)
      | some recorded =>
        dsimp only
        split
        · rename_i hsame
          exact iff_of_true rfl (Or.inr (Or.inr (congrArg some hsame)))
        · rename_i hother
          constructor
          · nofun
          · intro h
            rcases h with h | h | h
            · cases h
            · cases h
            · exact absurd (Option.some.inj h) hother

end State
end Hyperloom
