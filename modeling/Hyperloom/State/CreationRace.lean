import Hyperloom.Library.Machine
import Hyperloom.State.TaskCreation

/-!
# Concurrent creations

`create_or_return_existing` looks an idempotency key up outside any
transaction and, when no row holds it, inserts one in a transaction of its
own.  Between the two other calls may look the same key up.
-/

namespace Hyperloom
namespace State

open Library Storage

/-!
## The calls
-/

/-- One call of `create_or_return_existing`: its spec, and what the registry's
`dispatch_origin_provider` answers it, if there is one. -/
structure CreateCall where
  spec : TaskSpec
  provided : Option DispatchOrigin := none

def CreateCall.inserted (call : CreateCall) : TaskSpec :=
  if call.spec.dispatchClass.isSome ∧ call.spec.dispatchOrigin.isNone ∧ call.provided.isSome then
    { call.spec with dispatchOrigin := call.provided }
  else call.spec

inductive CreatePhase where
  | called
  | absent
  | returned (task : TaskRow) (wasExisting : Bool)
  | raised (e : CreateError)

/-- What a call does up to and including its read. -/
def readExisting (tasks : Tasks) (call : CreateCall) : CreatePhase :=
  match validateDispatchClass call.spec.dispatchClass with
  | .error e => .raised e
  | .ok _ =>
    match findByIdempotencyKey tasks call.spec.idempotencyKey with
    | none => .absent
    | some task =>
      match validateDispatchReuse task call.spec.dispatchClass with
      | .error e => .raised e
      | .ok _ => .returned task true

structure CreateState (ι : Type) where
  tasks : Tasks
  phase : ι -> CreatePhase

inductive CreateOp (ι : Type) where
  | read (i : ι)
  | insert (i : ι) (uuid : String) (now : Iso)

section

variable {ι : Type} [DecidableEq ι]

def CreateState.goto (s : CreateState ι) (i : ι) (phase : CreatePhase) : CreateState ι :=
  { s with phase := Function.update s.phase i phase }

variable (call : ι -> CreateCall)

def createStep (s : CreateState ι) : CreateOp ι -> Option (CreateState ι)
  | .read i =>
    match s.phase i with
    | .called => some (s.goto i (readExisting s.tasks (call i)))
    | _ => none
  | .insert i uuid now =>
    match s.phase i with
    | .absent =>
      match insertQueuedTask s.tasks (call i).inserted uuid now with
      | .error e => some (s.goto i (.raised e))
      | .ok (task, tasks) =>
        some { tasks := tasks
               phase := Function.update s.phase i (.returned task false) }
    | _ => none

/-- The machine of the calls, started on any table before any of them has
read. -/
def createMachine : Machine (CreateState ι) (CreateOp ι) where
  init s := forall i, s.phase i = .called
  step := createStep call

end

theorem CreateCall.inserted_idempotencyKey (call : CreateCall) :
    call.inserted.idempotencyKey = call.spec.idempotencyKey := by
  unfold CreateCall.inserted
  split <;> rfl

theorem CreateCall.inserted_dispatchClass (call : CreateCall) :
    call.inserted.dispatchClass = call.spec.dispatchClass := by
  unfold CreateCall.inserted
  split <;> rfl

variable {tasks : Tasks} {call : CreateCall}

theorem readExisting_eq_absent :
    readExisting tasks call = .absent <-> KnownClass call.spec.dispatchClass ∧
      KeyFree tasks call.spec.idempotencyKey := by
  unfold readExisting
  rw [← validateDispatchClass_ok, ← findByIdempotencyKey_eq_none]
  cases validateDispatchClass call.spec.dispatchClass with
  | error e =>
    constructor
    · nofun
    · intro h
      cases h.left
  | ok _ =>
    cases findByIdempotencyKey tasks call.spec.idempotencyKey with
    | none => exact iff_of_true rfl ⟨rfl, rfl⟩
    | some task =>
      constructor
      · intro h
        dsimp only at h
        split at h <;> cases h
      · intro h
        cases h.right

variable {task : TaskRow}

theorem readExisting_ne_created : readExisting tasks call ≠ .returned task false := by
  fun_cases readExisting tasks call with
  | _ => simp

theorem readExisting_of_find {recorded : Option String}
    (hfound : findByIdempotencyKey tasks call.spec.idempotencyKey = some task)
    (hrecorded : task.history.findSome? recordedClass? = recorded) (hknown : KnownClass recorded) :
    (exists answered wasExisting, readExisting tasks call = .returned answered wasExisting) <->
      KnownClass call.spec.dispatchClass ∧ Reusable recorded call.spec.dispatchClass := by
  have hreuse := @validateDispatchReuse_ok task recorded call.spec.dispatchClass hrecorded hknown
  rw [← hreuse]
  unfold readExisting
  rw [hfound]
  cases hclass : validateDispatchClass call.spec.dispatchClass with
  | error e =>
    have hraises : validateDispatchReuse task call.spec.dispatchClass = .error e := by
      unfold validateDispatchReuse
      rw [hclass]
    rw [hraises]
    constructor
    · intro h
      rcases h with ⟨_, _, h⟩
      cases h
    · nofun
  | ok _ =>
    dsimp only
    cases validateDispatchReuse task call.spec.dispatchClass with
    | error e =>
      constructor
      · intro h
        rcases h with ⟨_, _, h⟩
        cases h
      · nofun
    | ok _ => exact iff_of_true ⟨_, _, rfl⟩ rfl

theorem readExisting_returned {answered : TaskRow} {wasExisting : Bool}
    (hfound : findByIdempotencyKey tasks call.spec.idempotencyKey = some task)
    (h : readExisting tasks call = .returned answered wasExisting) :
    answered = task ∧ wasExisting = true := by
  unfold readExisting at h
  rw [hfound] at h
  split at h
  · cases h
  dsimp only at h
  split at h
  · cases h
  · cases h
    exact ⟨rfl, rfl⟩

/-!
## Runs of concurrent calls
-/

section

variable {ι : Type} [DecidableEq ι] {call : ι -> CreateCall}

def Over (s : CreateState ι) : Prop := forall i, s.phase i ≠ .called ∧ s.phase i ≠ .absent

/-- Every call returned the same task, and exactly one of them reports that it
did not exist. -/
def OneTask (s : CreateState ι) : Prop :=
  exists taskId creator, forall i, exists task wasExisting,
    s.phase i = .returned task wasExisting ∧ task.taskId = taskId ∧
      (wasExisting = false <-> i = creator)

/-- The first call to look the key up finds it free and inserts a row the table
takes before any other call looks, and every call may reuse that row. -/
def CreatesAlone (call : ι -> CreateCall) (tasks : Tasks) (trace : List (CreateOp ι)) : Prop :=
  exists creator uuid now rest, trace = .read creator :: .insert creator uuid now :: rest ∧
    ValidOrigin (call creator).inserted ∧ KeyFree tasks (call creator).spec.idempotencyKey ∧
    IdFree tasks ((call creator).inserted.newId uuid) ∧
    forall i, KnownClass (call i).spec.dispatchClass ∧
      Reusable (call creator).spec.dispatchClass (call i).spec.dispatchClass

variable {s : CreateState ι}

omit [DecidableEq ι] in
theorem OneTask.returned (h : OneTask s) (i : ι) :
    exists task wasExisting, s.phase i = .returned task wasExisting := by
  rcases h with ⟨_, _, h⟩
  rcases h i with ⟨task, wasExisting, hphase, _⟩
  exact ⟨task, wasExisting, hphase⟩

theorem CreateState.goto_phase (s : CreateState ι) (i : ι)
    (phase : CreatePhase) : (s.goto i phase).phase i = phase := by
  show Function.update s.phase i phase i = phase
  rw [Function.update_self]

variable {i : ι}

theorem CreateState.goto_phase_of_ne (s : CreateState ι) {j : ι}
    (phase : CreatePhase) (h : j ≠ i) : (s.goto i phase).phase j = s.phase j := by
  show Function.update s.phase i phase j = s.phase j
  rw [Function.update_of_ne h]

variable {t : CreateState ι}

theorem createStep_read (h : createStep call s (.read i) = some t) :
    s.phase i = .called ∧ t = s.goto i (readExisting s.tasks (call i)) := by
  unfold createStep at h
  dsimp only at h
  split at h
  · rename_i hphase
    exact ⟨hphase, (Option.some.inj h).symm⟩
  · cases h

variable {uuid : String}

theorem createStep_insert {now : Iso} (h : createStep call s (.insert i uuid now) = some t) :
    s.phase i = .absent ∧ ((exists e, t = s.goto i (.raised e)) ∨
        exists task after, Inserts s.tasks (call i).inserted uuid task after ∧
          t = { tasks := after
                phase := Function.update s.phase i (.returned task false) }) := by
  unfold createStep at h
  dsimp only at h
  split at h
  · rename_i hphase
    refine ⟨hphase, ?_⟩
    split at h
    · rename_i e _
      exact Or.inl ⟨e, (Option.some.inj h).symm⟩
    · rename_i task after hinsert
      exact Or.inr ⟨task, after, insertQueuedTask_ok hinsert, (Option.some.inj h).symm⟩
  · cases h

variable {start : CreateState ι} {task : TaskRow}

theorem createStep_eq_created {now : Iso} {after : Tasks} (hs : s = start.goto i .absent)
    (hok : insertQueuedTask start.tasks (call i).inserted uuid now = .ok (task, after)) :
    createStep call s (.insert i uuid now) =
      some { tasks := after
             phase := Function.update s.phase i (.returned task false) } := by
  have hphase : s.phase i = .absent := by
    rw [hs]
    exact CreateState.goto_phase start i .absent
  have htasks : s.tasks = start.tasks := by
    rw [hs]
    rfl
  unfold createStep
  dsimp only
  rw [hphase, htasks, hok]

/-- What a phase may still become. -/
inductive Later : CreatePhase -> CreatePhase -> Prop where
  | same (p : CreatePhase) : Later p p
  | read (q : CreatePhase) : Later .called q
  | created (task : TaskRow) : Later .absent (.returned task false)
  | raised (e : CreateError) : Later .absent (.raised e)

theorem Later.trans {p q r : CreatePhase} (hpq : Later p q) (hqr : Later q r) : Later p r := by
  cases hpq with
  | same => exact hqr
  | read => exact Later.read r
  | created task =>
    cases hqr with
    | same => exact Later.created task
  | raised e =>
    cases hqr with
    | same => exact Later.raised e

theorem later_update {phase : CreatePhase} (h : Later (s.phase i) phase) (j : ι) :
    Later (s.phase j) (Function.update s.phase i phase j) :=
  (Function.forall_update_iff _ fun j => Later (s.phase j)).mpr ⟨h, fun _ _ => Later.same _⟩ j

variable {op : CreateOp ι}

theorem later_step (h : createStep call s op = some t) (j : ι) : Later (s.phase j) (t.phase j) := by
  cases op with
  | read i =>
    rcases createStep_read h with ⟨hphase, rfl⟩
    apply later_update
    rw [hphase]
    exact Later.read _
  | insert i uuid now =>
    rcases createStep_insert h with ⟨hphase, ⟨e, ht⟩ | ⟨task, after, _, ht⟩⟩
    · rw [ht]
      apply later_update
      rw [hphase]
      exact Later.raised e
    · rw [ht]
      apply later_update
      rw [hphase]
      exact Later.created task

variable {trace : List (CreateOp ι)}

theorem later_run (h : (createMachine call).Run Machine.Always s trace t)
    (j : ι) : Later (s.phase j) (t.phase j) := by
  induction h with
  | nil s => exact Later.same _
  | cons _ hstep _ ih => exact (later_step hstep j).trans ih

/-- Calls that returned gave the row their key finds. -/
def Answered (call : ι -> CreateCall) (s : CreateState ι) : Prop :=
  forall i task wasExisting, s.phase i = .returned task wasExisting ->
    findByIdempotencyKey s.tasks (call i).spec.idempotencyKey = some task

theorem Answered.step (hs : Answered call s) (h : createStep call s op = some t) :
    Answered call t := by
  intro j task wasExisting hphase
  have hold := hs j task wasExisting
  cases op with
  | read i =>
    rcases createStep_read h with ⟨_, rfl⟩
    simp only [CreateState.goto, Function.update_apply] at hphase ⊢
    grind [readExisting]
  | insert i uuid now =>
    rcases createStep_insert h with ⟨_, ⟨e, rfl⟩ | ⟨row, after, hins, rfl⟩⟩
    · simp only [CreateState.goto, Function.update_apply] at hphase ⊢
      grind
    · -- The new row comes last, so what others find stays.
      have hfind := hins.find
      rw [(call i).inserted_idempotencyKey] at hfind
      simp only [Function.update_apply] at hphase
      unfold findByIdempotencyKey at hfind hold ⊢
      grind [hins.rows]

theorem returned_rows_found (hs : (createMachine call).Reachable s) : Answered call s := by
  refine hs.invariant ?_ fun _ _ _ hs _ hstep => hs.step hstep
  intro start hinit i task wasExisting hphase
  cases (hinit i).symm.trans hphase

/-!
## Once the row is there

After the creation nobody inserts any more, so every later read answers with
the created row.
-/

/-- One call created the row its key names; the others have not read or were
answered from it. -/
structure Created (call : ι -> CreateCall) (key : String) (creator : ι)
    (task : TaskRow) (s : CreateState ι) : Prop where
  found : findByIdempotencyKey s.tasks key = some task
  created : s.phase creator = .returned task false
  others : forall i, i ≠ creator -> s.phase i = .called ∨ s.phase i = readExisting s.tasks (call i)

variable {key : String} {creator : ι}

section

variable (hkey : forall i, (call i).spec.idempotencyKey = key)

include hkey

theorem Created.step (hs : Created call key creator task s) (h : createStep call s op = some t) :
    Created call key creator task t := by
  cases op with
  | read i =>
    rcases createStep_read h with ⟨hphase, rfl⟩
    have hne : creator ≠ i := by
      intro heq
      rw [← heq, hs.created] at hphase
      cases hphase
    refine ⟨hs.found, ?_, ?_⟩
    · rw [CreateState.goto_phase_of_ne _ _ hne]
      exact hs.created
    · intro j hj
      by_cases hji : j = i
      · rw [hji]
        exact Or.inr (CreateState.goto_phase s i _)
      · rw [CreateState.goto_phase_of_ne _ _ hji]
        exact hs.others j hj
  | insert i uuid now =>
    rcases createStep_insert h with ⟨hphase, _⟩
    by_cases hi : i = creator
    · rw [hi, hs.created] at hphase
      cases hphase
    · -- A call that was answered from the row is not waiting to insert.
      rcases hs.others i hi with hcalled | hread
      · rw [hcalled] at hphase
        cases hphase
      · rw [hread, readExisting_eq_absent, hkey i,
          ← findByIdempotencyKey_eq_none, hs.found] at hphase
        cases hphase.right

theorem Created.run (h : (createMachine call).Run Machine.Always s trace t)
    (hs : Created call key creator task s) : Created call key creator task t :=
  h.invariant (fun _ _ _ hs _ hstep => hs.step hkey hstep) hs

/-- When the calls are over, they agree exactly if every one of them may reuse
the created row. -/
theorem Created.oneTask_iff
    (hs : Created call key creator task s) (hover : Over s) {recorded : Option String}
    (hrecorded : task.history.findSome? recordedClass? = recorded) (hknown : KnownClass recorded) :
    OneTask s <-> forall i, i ≠ creator -> KnownClass (call i).spec.dispatchClass ∧
        Reusable recorded (call i).spec.dispatchClass := by
  have hfound : forall i,
      findByIdempotencyKey s.tasks (call i).spec.idempotencyKey = some task := by
    intro i
    rw [hkey i]
    exact hs.found
  have hread : forall i, i ≠ creator -> s.phase i = readExisting s.tasks (call i) := by
    intro i hi
    rcases hs.others i hi with hcalled | hread
    · exact absurd hcalled (hover i).left
    · exact hread
  constructor
  · intro hone i hi
    apply (readExisting_of_find (hfound i) hrecorded hknown).mp
    rw [← hread i hi]
    exact hone.returned i
  · intro hreuse
    refine ⟨task.taskId, creator, ?_⟩
    intro i
    by_cases hi : i = creator
    · rw [hi]
      exact ⟨task, false, hs.created, rfl, iff_of_true rfl rfl⟩
    · rcases (readExisting_of_find (hfound i) hrecorded hknown).mpr
        (hreuse i hi) with ⟨answered, wasExisting, hanswer⟩
      rcases readExisting_returned (hfound i) hanswer with ⟨htask, rfl⟩
      rw [htask] at hanswer
      exact ⟨task, true, (hread i hi).trans hanswer, rfl, iff_of_false Bool.noConfusion hi⟩

end

/-!
## Once the key is taken
-/

/-- The key is taken and nobody is about to insert or has inserted. -/
def Taken (key : String) (s : CreateState ι) : Prop :=
  ¬ KeyFree s.tasks key ∧
    forall i, s.phase i ≠ .absent ∧ forall task, s.phase i ≠ .returned task false

theorem taken_step (hkey : forall i, (call i).spec.idempotencyKey = key)
    (hs : Taken key s) (h : createStep call s op = some t) : Taken key t := by
  cases op with
  | read i =>
    rcases createStep_read h with ⟨_, rfl⟩
    refine ⟨hs.left, ?_⟩
    intro j
    by_cases hj : j = i
    · rw [hj, CreateState.goto_phase]
      refine ⟨?_, fun task => readExisting_ne_created⟩
      intro habsent
      rw [readExisting_eq_absent, hkey i] at habsent
      exact hs.left habsent.right
    · rw [CreateState.goto_phase_of_ne _ _ hj]
      exact hs.right j
  | insert i uuid now =>
    exact absurd (createStep_insert h).left (hs.right i).left

section

variable (h : (createMachine call).Run Machine.Always s trace t)

include h

theorem not_oneTask_of_taken (hkey : forall i, (call i).spec.idempotencyKey = key)
    (hs : Taken key s) : ¬ OneTask t := by
  intro hone
  rcases hone with ⟨_, creator, hone⟩
  have ht : Taken key t :=
    h.invariant (I := Taken key) (fun _ _ _ hs _ hstep => taken_step hkey hs hstep) hs
  rcases hone creator with ⟨task, wasExisting, hphase, _, hnew⟩
  rw [hnew.mpr rfl] at hphase
  exact (ht.right creator).right task hphase

theorem not_oneTask_of_raised {e : CreateError} (hs : s.phase i = .raised e) : ¬ OneTask t := by
  intro hone
  rcases hone.returned i with ⟨task, wasExisting, hphase⟩
  have hlater := later_run h i
  rw [hs, hphase] at hlater
  cases hlater

theorem not_oneTask_of_absent {j : ι} (hi : s.phase i = .absent) (hj : s.phase j = .absent)
    (hij : i ≠ j) : ¬ OneTask t := by
  intro hone
  rcases hone with ⟨taskId, creator, hone⟩
  have hcreates : forall k, s.phase k = .absent -> k = creator := by
    intro k hk
    rcases hone k with ⟨task, wasExisting, hphase, _, hnew⟩
    have hlater := later_run h k
    rw [hk, hphase] at hlater
    cases hlater
    exact hnew.mp rfl
  exact hij ((hcreates i hi).trans (hcreates j hj).symm)

end

variable {rest : List (CreateOp ι)}

theorem oneTask_inserts (hstart : forall i, start.phase i = .called)
    (hs : s = start.goto creator .absent)
    (hfree : forall i, KeyFree start.tasks (call i).spec.idempotencyKey)
    (h : (createMachine call).Run Machine.Always s rest t) (hone : OneTask t) :
    exists uuid now later next task after, rest = .insert creator uuid now :: later ∧
      Inserts start.tasks (call creator).inserted uuid task after ∧
      next = { tasks := after
               phase := Function.update s.phase creator (.returned task false) } ∧
      (createMachine call).Run Machine.Always next later t := by
  have habsent : s.phase creator = .absent := by
    rw [hs]
    exact CreateState.goto_phase start creator .absent
  cases h with
  | nil =>
    rcases hone.returned creator with ⟨task, wasExisting, hphase⟩
    rw [habsent] at hphase
    cases hphase
  | @cons _ next _ op later hC hstep hrest =>
    cases op with
    | read i =>
      rcases createStep_read hstep with ⟨hcalled, hnext⟩
      have hne : creator ≠ i := by
        intro heq
        rw [← heq, habsent] at hcalled
        cases hcalled
      have hcreator : next.phase creator = .absent := by
        rw [hnext, CreateState.goto_phase_of_ne _ _ hne]
        exact habsent
      have hi : next.phase i = readExisting start.tasks (call i) := by
        rw [hnext, CreateState.goto_phase, hs]
        rfl
      -- The other call finds the key free as well, unless it raises.
      by_cases hknown : KnownClass (call i).spec.dispatchClass
      · rw [readExisting_eq_absent.mpr ⟨hknown, hfree i⟩] at hi
        exact absurd hone (not_oneTask_of_absent hrest hcreator hi hne)
      · unfold readExisting at hi
        split at hi
        · exact absurd hone (not_oneTask_of_raised hrest hi)
        rename_i hok
        exact absurd (validateDispatchClass_ok.mp hok) hknown
    | insert i uuid now =>
      rcases createStep_insert hstep with ⟨hphase, ⟨e, hnext⟩ | ⟨task, after, hinserts, hnext⟩⟩
      · have hraised : next.phase i = .raised e := by
          rw [hnext]
          exact CreateState.goto_phase s i _
        exact absurd hone (not_oneTask_of_raised hrest hraised)
      · have hi : i = creator := by
          by_contra hne
          rw [hs, CreateState.goto_phase_of_ne _ _ hne, hstart i] at hphase
          cases hphase
        rw [hi] at hinserts hnext
        rw [hs] at hinserts
        exact ⟨uuid, now, later, next, task, after, by rw [hi], hinserts, hnext, hrest⟩

section

variable (hkey : forall i, (call i).spec.idempotencyKey = key)

include hkey

section

variable (hstart : forall i, start.phase i = .called)

include hstart

theorem created_of_inserts {after : Tasks}
    (h : Inserts start.tasks (call creator).inserted uuid task after) :
    Created call key creator task
      { tasks := after
        phase := Function.update (start.goto creator .absent).phase creator
          (.returned task false) } := by
  have hfound := h.find
  rw [(call creator).inserted_idempotencyKey, hkey creator] at hfound
  refine ⟨hfound, Function.update_self _ _ _, ?_⟩
  intro i hi
  left
  show Function.update _ creator _ i = _
  rw [Function.update_of_ne hi, CreateState.goto_phase_of_ne _ _ hi]
  exact hstart i

theorem oneTask_reads_absent (hstep : createStep call start (.read creator) = some s)
    (hrest : (createMachine call).Run Machine.Always s rest t) (hone : OneTask t) :
    KeyFree start.tasks key ∧ KnownClass (call creator).spec.dispatchClass ∧
      s = start.goto creator .absent := by
  rcases createStep_read hstep with ⟨_, hs⟩
  have hfree : KeyFree start.tasks key := by
    by_contra htaken
    have hnone : Taken key start := by
      refine ⟨htaken, ?_⟩
      intro i
      rw [hstart i]
      exact ⟨nofun, nofun⟩
    exact not_oneTask_of_taken hrest hkey (taken_step hkey hnone hstep) hone
  have hknown : KnownClass (call creator).spec.dispatchClass := by
    by_contra hunknown
    unfold readExisting at hs
    split at hs
    · rename_i e _
      have hraised : s.phase creator = .raised e := by
        rw [hs]
        exact CreateState.goto_phase start creator _
      exact not_oneTask_of_raised hrest hraised hone
    · rename_i hok
      exact hunknown (validateDispatchClass_ok.mp hok)
  rw [← hkey creator] at hfree
  rw [readExisting_eq_absent.mpr ⟨hknown, hfree⟩] at hs
  rw [hkey creator] at hfree
  exact ⟨hfree, hknown, hs⟩

theorem createsAlone_of_oneTask (hrun : (createMachine call).Run Machine.Always start trace t)
    (hover : Over t) (hone : OneTask t) : CreatesAlone call start.tasks trace := by
  cases hrun with
  | nil =>
    rcases hone with ⟨_, creator, hone⟩
    rcases hone creator with ⟨task, wasExisting, hphase, _⟩
    rw [hstart creator] at hphase
    cases hphase
  | @cons _ s _ op rest hC hstep hrest =>
    cases op with
    | insert i uuid now =>
      have hphase := (createStep_insert hstep).left
      rw [hstart i] at hphase
      cases hphase
    | read creator =>
      rcases oneTask_reads_absent hkey hstart hstep hrest hone with ⟨hfree, hknown, hs⟩
      have hfrees : forall i, KeyFree start.tasks (call i).spec.idempotencyKey := by
        intro i
        rw [hkey i]
        exact hfree
      rcases oneTask_inserts hstart hs hfrees hrest hone with
        ⟨uuid, now, later, next, task, after, hrest', hinserts, rfl, hlater⟩
      have hcreated := created_of_inserts hkey hstart hinserts
      rw [← hs] at hcreated
      have hclass := hinserts.taskClass
      rw [(call creator).inserted_dispatchClass] at hclass
      have hreuse := ((hcreated.run hkey hlater).oneTask_iff hkey hover hclass hknown).mp hone
      refine ⟨creator, uuid, now, later, by rw [hrest'], hinserts.origin,
        hfrees creator, hinserts.idFree, ?_⟩
      intro i
      by_cases hi : i = creator
      · rw [hi]
        exact ⟨hknown, Or.inr (Or.inr rfl)⟩
      · exact hreuse i hi

theorem oneTask_of_createsAlone (hrun : (createMachine call).Run Machine.Always start trace t)
    (hover : Over t) (halone : CreatesAlone call start.tasks trace) : OneTask t := by
  rcases halone with ⟨creator, uuid, now, later, rfl, horigin, hfree, hid, hreuse⟩
  cases hrun with
  | @cons _ s _ _ _ _ hread hrest =>
    cases hrest with
    | @cons _ next _ _ _ _ hinsert hlater =>
      rcases createStep_read hread with ⟨_, hs⟩
      rw [readExisting_eq_absent.mpr ⟨(hreuse creator).left, hfree⟩] at hs
      have hknown := (hreuse creator).left
      rw [← (call creator).inserted_dispatchClass] at hknown
      rw [← (call creator).inserted_idempotencyKey] at hfree
      rcases @insertQueuedTask_of_free start.tasks
        (call creator).inserted uuid now hknown horigin hfree hid with ⟨task, after, hok⟩
      have hcommit : createStep call s (.insert creator uuid now) = some _ :=
        createStep_eq_created hs hok
      have hnext := Option.some.inj (hinsert.symm.trans hcommit)
      have hinserts := insertQueuedTask_ok hok
      have hcreated := created_of_inserts hkey hstart hinserts
      rw [← hs, ← hnext] at hcreated
      apply ((hcreated.run hkey hlater).oneTask_iff hkey hover hinserts.taskClass hknown).mpr
      intro i _
      rw [(call creator).inserted_dispatchClass]
      exact hreuse i

end

end

/-- Calls for one key agree on one task exactly if the first of them to look
the key up creates the row before any other looks. -/
theorem createOrReturnExisting_oneTask_iff {key : String}
    (hkey : forall i, (call i).spec.idempotencyKey = key)
    {start t : CreateState ι} {trace : List (CreateOp ι)} (hstart : (createMachine call).init start)
    (hrun : (createMachine call).Run Machine.Always start trace t) (hover : Over t) :
    OneTask t <-> CreatesAlone call start.tasks trace :=
  ⟨createsAlone_of_oneTask hkey hstart hrun hover, oneTask_of_createsAlone hkey hstart hrun hover⟩

def sameCalls (_ : Bool) : CreateCall where
  spec := { kind := "explore", idempotencyKey := "k" }

def noTasks : CreateState Bool where
  tasks := Table.empty
  phase _ := .called

theorem createOrReturnExisting_oneTask_serial :
    exists t, (createMachine sameCalls).Run Machine.Always noTasks
      [.read false, .insert false "a" ⟨0⟩, .read true] t ∧ OneTask t := by
  have hrun : (createMachine sameCalls).Run Machine.Always noTasks
      [.read false, .insert false "a" ⟨0⟩, .read true] _ :=
    .cons trivial rfl (.cons trivial rfl (.cons trivial rfl (.nil _)))
  refine ⟨_, hrun, (createOrReturnExisting_oneTask_iff (fun _ => rfl)
    (fun _ => rfl) hrun ?_).mpr ?_⟩
  · intro i
    cases i
    · exact ⟨nofun, nofun⟩
    · exact ⟨nofun, nofun⟩
  · refine ⟨false, "a", ⟨0⟩, [.read true], rfl, nofun, nofun, nofun, ?_⟩
    intro i
    exact ⟨nofun, Or.inl rfl⟩

/-- Both calls find the key free; the second insertion raises. -/
theorem createOrReturnExisting_races :
    exists t, (createMachine sameCalls).Run Machine.Always noTasks
        [.read false, .read true, .insert false "a" ⟨0⟩, .insert true "b" ⟨1⟩]
        t ∧
      Over t ∧ t.phase true = .raised .uniqueConstraint ∧ ¬ OneTask t := by
  have hrun : (createMachine sameCalls).Run Machine.Always noTasks
      [.read false, .read true, .insert false "a" ⟨0⟩, .insert true "b" ⟨1⟩] _ :=
    .cons trivial rfl (.cons trivial rfl (.cons trivial rfl (.cons trivial rfl (.nil _))))
  refine ⟨_, hrun, ?_, rfl, ?_⟩
  · intro i
    cases i
    · exact ⟨nofun, nofun⟩
    · exact ⟨nofun, nofun⟩
  · intro hone
    rcases hone.returned true with ⟨task, wasExisting, hphase⟩
    cases hphase

theorem winner_row_found :
    exists s : CreateState Bool, exists task,
      s.phase false = .returned task false ∧ findByIdempotencyKey s.tasks "k" = some task := by
  have hs : (createMachine sameCalls).Reachable _ :=
    ⟨noTasks, [.read false, .read true, .insert false "a" ⟨0⟩], fun _ => rfl,
      .cons trivial rfl (.cons trivial rfl (.cons trivial rfl (.nil _)))⟩
  exact ⟨_, _, rfl, returned_rows_found hs false _ false rfl⟩

end
end State
end Hyperloom
