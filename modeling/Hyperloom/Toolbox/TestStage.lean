import Hyperloom.Toolbox.TestLife

/-!
# The stages of a test

The memory of a process has six fields for each test, kept in step by hand.
A stage says what they amount to, and the memory of a reachable life is that
of a stage that fits what the log holds of the test.
-/

namespace Hyperloom
namespace Toolbox

open Library Blackboard

/-- Where a process is with a test: nothing is left to do in it, its recovery
or publish is under way, it waits in the queue, it runs, or withdrawals wait
for its cancelled run. -/
inductive Stage where
  | idle
  | recover
  | publish (next : Publishing)
  | queued (item : QueuedTest)
  | running (item : QueuedTest) (phase : RunPhase)
  | withdrawing (run : Option RunTask) (reasons : List String)

/-- What the log and the blackboard say of a test: the request, whether it
waits for an outcome, whether its submit was aborted and whether its row is
there. -/
structure Standing where
  accepted : Option TestRequest
  waiting : Bool
  aborted : Bool
  known : Bool

def Life.standing (life : Life) : Standing where
  accepted := life.accepted
  waiting := life.waiting
  aborted := life.entry.aborted
  known := life.rows.request.isSome

/-- A run task that `_tasks` has no more, of a test that waits for an outcome or
not.  Where no withdrawal came while a cancelled run had still to end
(`orderly`), such a run too is recorded exactly once it is writing. -/
structure RunTask.Detached (orderly : Prop) (waiting : Bool) (task : RunTask) : Prop where
  unstarted : task.phase = .created -> task.cancelled = true
  recorded : task.phase = .writing -> waiting = false
  unrecorded : orderly -> task.phase ≠ .writing -> waiting = true

variable {item : QueuedTest}

namespace Stage

def memory : Stage -> Memory
  | idle => {}
  | recover => { toRecover := true }
  | publish next => { publishing := some next }
  | queued item => { item := some item }
  | running item phase =>
    { item := some item, run := some ⟨phase, false⟩, registered := true }
  | withdrawing run reasons => { run := run, awaiting := reasons }

/-- What the log, the rows and the process's mode say of a test at a stage. -/
def Fits (mode : Mode) (orderly : Prop) (standing : Standing) : Stage -> Prop
  | idle => mode = .down ∨ standing.waiting = false
  | recover => mode = .recovering ∧ standing.aborted = false
  | publish next =>
    mode ≠ .down ∧ standing.waiting = true ∧ (next = .attach -> standing.known = true)
  | queued item =>
    mode ≠ .down ∧ standing.waiting = true ∧
      standing.accepted = some item.request ∧ item.state ≠ .running
  | running item phase =>
    mode ≠ .down ∧ standing.accepted = some item.request ∧
      item.state = .running ∧ (standing.waiting = true <-> phase ≠ .writing)
  | withdrawing run reasons =>
    mode ≠ .down ∧ reasons ≠ [] ∧
      forall task, run = some task -> task.Detached orderly standing.waiting

section

variable {stage : Stage}

theorem eq_recover (h : stage.memory.toRecover = true) : stage = recover := by
  cases stage with
  | recover => rfl
  | _ => cases h

theorem eq_publish {next : Publishing}
    (h : stage.memory.publishing = some next) : stage = publish next := by
  cases stage with
  | publish other => cases h; rfl
  | _ => cases h

theorem of_item (h : stage.memory.item = some item) :
    stage = queued item ∨ exists phase, stage = running item phase := by
  cases stage with
  | queued other => cases h; exact Or.inl rfl
  | running other phase => cases h; exact Or.inr ⟨phase, rfl⟩
  | _ => cases h

theorem of_run {run : RunTask} (h : stage.memory.run = some run) :
    (exists item, stage = running item run.phase ∧ run.cancelled = false) ∨
      exists reasons, stage = withdrawing (some run) reasons := by
  cases stage with
  | running item phase => cases h; exact Or.inl ⟨item, rfl, rfl⟩
  | withdrawing other reasons => cases h; exact Or.inr ⟨reasons, rfl⟩
  | _ => cases h

theorem eq_withdrawing {reason : String} {rest : List String}
    (h : stage.memory.awaiting = reason :: rest) :
    stage = withdrawing stage.memory.run (reason :: rest) := by
  cases stage with
  | withdrawing run reasons => cases h; rfl
  | _ => cases h

end

end Stage

/-!
## From stage to stage
-/

/-- What a run task does next; it is gone in the end. -/
inductive RunTask.Next : RunTask -> LifeOp -> Option RunTask -> Prop where
  | begins : Next ⟨.created, false⟩ .beginRun (some ⟨.executing, false⟩)
  | returned (cancelled : Bool) (result : TestResult) :
    Next ⟨.executing, cancelled⟩ (.executed (.returned result)) (some ⟨.pooling result, false⟩)
  | raised (cancelled : Bool) (error : String) :
    Next ⟨.executing, cancelled⟩ (.executed (.raised error)) (some ⟨.writing, false⟩)
  | pooled (first result : TestResult) :
    Next ⟨.pooling first, false⟩ (.pooled result) (some ⟨.writing, false⟩)
  | cancelled (phase : RunPhase) : Next ⟨phase, true⟩ .runCancelled none
  | ended (cancelled : Bool) : Next ⟨.writing, cancelled⟩ .runEnd none

/-- How a test moves on from stage to stage, `take` apart. -/
inductive Stage.Next : Stage -> LifeOp -> Stage -> Prop where
  | recoverWritten : Next .recover .recoverWritten .idle
  | prepared : Next .recover (.recoverPrepare .accepted) (.publish .row)
  | rejected (text : String) : Next .recover (.recoverPrepare (.rejected text)) .idle
  | prepareRaised : Next .recover (.recoverPrepare .raised) .recover
  | row : Next (.publish .row) (.publishRow .done) (.publish .attach)
  | rowAborted (ending : CallEnd) : Next (.publish .row) (.publishRow ending) .idle
  | attached (builds : Bool) (item : QueuedTest) : item.state ≠ .running ->
    Next (.publish .attach) (.publishAttach (.attached builds)) (.queued item)
  | unattached (ending : AttachEnd) : Next (.publish .attach) (.publishAttach ending) .idle
  | buildsReady (item : QueuedTest) (now : Rat) : item.state = .pendingBuild ->
    Next (.queued item) (.buildsReady now) (.queued { item with state := .queued, queuedAt := now })
  | buildsEnded (item : QueuedTest) (result : TestResult) :
    item.state ≠ .running -> Next (.queued item) (.buildsEnded result) .idle
  | run (item : QueuedTest) {phase after : RunPhase} {op : LifeOp} :
    RunTask.Next ⟨phase, false⟩ op (some ⟨after, false⟩) ->
    Next (.running item phase) op (.running item after)
  | runEnded (item : QueuedTest) {phase : RunPhase} {op : LifeOp} :
    RunTask.Next ⟨phase, false⟩ op none -> Next (.running item phase) op .idle
  | detached (reasons : List String) {run : RunTask}
    {after : Option RunTask} {op : LifeOp} : RunTask.Next run op after ->
    Next (.withdrawing (some run) reasons) op (.withdrawing after reasons)
  | withdrawQueued (item : QueuedTest) (reason : String) :
    Next (.queued item) (.withdraw reason) .idle
  | withdrawRunning (item : QueuedTest) (phase : RunPhase) (reason : String) :
    Next (.running item phase) (.withdraw reason) (.withdrawing (some ⟨phase, true⟩) [reason])
  | withdrawAgain (stage : Stage) (reason : String) : Next stage (.withdraw reason) stage
  | resumeLast (reason : String) : Next (.withdrawing none [reason]) .resume .idle
  | resume (reason later : String) (rest : List String) :
    Next (.withdrawing none (reason :: later :: rest)) .resume (.withdrawing none (later :: rest))
  | write (stage : Stage) (document : Document) (ending : CallEnd) :
    Next stage (.writeOutcome document ending) stage

namespace Life

/-- The memory is that of a stage, the log has the request under its id, and
what the blackboard has of an outcome was recorded first. -/
structure Sound (requestId : String) (mode : Mode) (orderly : Prop) (life : Life) : Prop where
  named : exists request, life.accepted = some request ∧ request.requestId = requestId
  unrecorded : life.outcome = none ->
    life.recorded = [] ∧ life.rows.final = false ∧ life.entry.settled = false
  staged : exists stage : Stage, life.memory = stage.memory ∧ stage.Fits mode orderly life.standing

/-- What a step writes besides the memory.  Where the withdrawals came in order
an outcome is recorded only for a test that waits for one. -/
inductive Change (requestId : String) (orderly : Prop) (life : Life) : LifeOp -> Life -> Prop where
  | remember (op : LifeOp) (memory : Memory) :
    Change requestId orderly life op { life with memory := memory }
  | record (op : LifeOp) (memory : Memory) (document : Document) :
    (orderly -> life.waiting = true) -> document.isOutcome = true ->
    Change requestId orderly life op { life.record document with memory := memory }
  | row (memory : Memory) (row : TestRequest) : life.row = some row -> life.waiting = true ->
    Change requestId orderly life (.publishRow .done) { life with
        rows := { life.rows with request := some row }
        memory := memory }
  | conflictingRow (memory : Memory) (row other : TestRequest) :
    life.row = some row -> life.rows.request = some other -> other ≠ row ->
    Change requestId orderly life (.publishRow .done) { life.abort with memory := memory }
  | failedRow (memory : Memory) (appended : Bool) (row : TestRequest) : life.row = some row ->
    Change requestId orderly life (.publishRow (.failed appended)) { life.abort with
        rows :=
          if appended && life.rows.request.isNone then
            { life.rows with request := some row }
          else life.rows
        memory := memory }
  | attached (memory : Memory) (builds returned : Bool) :
    life.rows.request.isSome = true -> life.waiting = true ->
    Change requestId orderly life (.publishAttach (.attached builds))
      { life with memory := memory, returned := life.returned || returned }
  | failedAttach (memory : Memory) :
    Change requestId orderly life (.publishAttach .failed) { life.abort with memory := memory }
  | written (document : Document) (rows : TestRows) : document ∈ life.recorded ->
    life.rows.write requestId document = .written rows ->
    Change requestId orderly life (.writeOutcome document .done) { life.settle with rows := rows }
  | conflicting (document : Document) : document ∈ life.recorded ->
    life.rows.write requestId document = .conflict ->
    Change requestId orderly life (.writeOutcome document .done) life.settle
  | appended (document : Document) (rows : TestRows) : document ∈ life.recorded ->
    life.rows.write requestId document = .written rows ->
    Change requestId orderly life (.writeOutcome document (.failed true)) { life with rows := rows }

/-- A step of a test moves on to another stage and changes the log and the rows
as its kind of step does. -/
structure Advances (requestId : String) (mode : Mode) (orderly : Prop)
    (life : Life) (op : LifeOp) (next : Life) : Prop where
  sound : next.Sound requestId mode orderly
  moves : exists before after : Stage, life.memory = before.memory ∧
    next.memory = after.memory ∧ Stage.Next before op after
  change : Change requestId orderly life op next

section

variable {life : Life}

@[simp] theorem waiting_record (document : Document) : (life.record document).waiting = false :=
  rfl

@[simp] theorem waiting_abort : life.abort.waiting = false := Bool.and_false _

theorem waiting_of_outcome (h : life.outcome.isSome = true) : life.waiting = false := by
  unfold waiting LogEntry.waiting
  rw [← Option.not_isSome]
  unfold outcome at h
  rw [h]
  rfl

end

/-!
## One step
-/

/-- A withdrawal is in order unless it comes while the run that another one
cancelled has still to end. -/
def inOrder (life : Life) : LifeOp -> Bool
  | .withdraw _ =>
    !life.waiting || life.memory.run.isNone || life.memory.registered
  | _ => true

section

variable {requestId : String} {process : Process} {orderly : Prop} {life next : Life}

theorem Sound.queued_of_item {mode : Mode} (hs : life.Sound requestId mode orderly)
    (hitem : life.memory.item = some item) (hstate : item.state ≠ .running) :
    life.memory = (Stage.queued item).memory ∧
      (Stage.queued item).Fits mode orderly life.standing := by
  rcases hs.staged with ⟨stage, hmemory, hfits⟩
  rw [hmemory] at hitem
  rcases Stage.of_item hitem with rfl | ⟨phase, rfl⟩
  · exact ⟨hmemory, hfits⟩
  · exact absurd hfits.right.right.left hstate

variable {before after : Stage}

section

variable (h : life.Sound requestId process.mode orderly)

include h

theorem Sound.remember
    {op : LifeOp} (hnext : Stage.Next before op after) (hmemory : life.memory = before.memory)
    (hfits : after.Fits process.mode orderly life.standing) :
    Advances requestId process.mode orderly life op { life with memory := after.memory } where
  sound := { h with staged := ⟨after, rfl, hfits⟩ }
  moves := ⟨before, after, hmemory, rfl, hnext⟩
  change := Change.remember op after.memory

theorem Sound.record {op : LifeOp} (hnext : Stage.Next before op after)
    (hmemory : life.memory = before.memory) {document : Document}
    (hkind : document.isOutcome = true) (hwaiting : orderly -> life.waiting = true)
    (hfits : after.Fits process.mode orderly (life.record document).standing) :
    Advances requestId process.mode orderly life op
      { life.record document with memory := after.memory } where
  sound := { h with unrecorded := nofun, staged := ⟨after, rfl, hfits⟩ }
  moves := ⟨before, after, hmemory, rfl, hnext⟩
  change := Change.record op after.memory document hwaiting hkind

theorem Sound.recordIfWaiting {op : LifeOp} (hnext : Stage.Next before op after)
    (hmemory : life.memory = before.memory) {document : Document}
    (hkind : document.isOutcome = true)
    (hfits : forall standing : Standing, standing.waiting = false ->
      after.Fits process.mode orderly standing) :
    Advances requestId process.mode orderly life op
      { life.recordIfWaiting document with memory := after.memory } := by
  unfold Life.recordIfWaiting
  split
  · rename_i hwaiting
    exact h.record hnext hmemory hkind (fun _ => hwaiting) (hfits _ rfl)
  · rename_i hwaiting
    exact h.remember hnext hmemory (hfits _ (Bool.eq_false_iff.mpr hwaiting))

theorem Sound.aborted (rows : TestRows) (hrows : rows.final = life.rows.final) :
    Sound requestId process.mode orderly { life.abort with
        rows := rows
        memory := {} } where
  named := h.named
  unrecorded := by
    intro hnone
    exact hrows ▸ h.unrecorded hnone
  staged := ⟨.idle, rfl, Or.inr waiting_abort⟩

end

section

variable (hs : life.Sound requestId process.mode orderly)
include hs

theorem Sound.stage_of_toRecover (h : life.memory.toRecover = true) :
    life.memory = Stage.recover.memory ∧ Stage.recover.Fits process.mode orderly life.standing := by
  rcases hs.staged with ⟨stage, hmemory, hfits⟩
  rcases Stage.eq_recover (hmemory ▸ h) with rfl
  exact ⟨hmemory, hfits⟩

theorem Sound.stage_of_publishing {publishing : Publishing}
    (h : life.memory.publishing = some publishing) :
    life.memory = (Stage.publish publishing).memory ∧
      (Stage.publish publishing).Fits process.mode orderly life.standing := by
  rcases hs.staged with ⟨stage, hmemory, hfits⟩
  rcases Stage.eq_publish (hmemory ▸ h) with rfl
  exact ⟨hmemory, hfits⟩

theorem recoverWritten_advances (h : life.recoverWritten = some next) :
    Advances requestId process.mode orderly life .recoverWritten next := by
  rcases some_of_when h with ⟨hguard, rfl⟩
  exact hs.remember .recoverWritten (hs.stage_of_toRecover hguard.left).left
    (Or.inr (waiting_of_outcome hguard.right))

theorem recoverFinal_eq_none : life.recoverFinal = none := by
  unfold recoverFinal
  split
  · rename_i hguard
    have hopen := hs.unrecorded (Option.isNone_iff_eq_none.mp hguard.right.left)
    rw [hopen.right.left] at hguard
    cases hguard.right.right
  · rfl

theorem recoverPrepare_advances {answer : Prepared} (h : life.recoverPrepare answer = some next) :
    Advances requestId process.mode orderly life (.recoverPrepare answer) next := by
  unfold recoverPrepare at h
  split at h
  · rename_i hguard
    rcases hs.stage_of_toRecover hguard.left with ⟨hmemory, hmode, haborted⟩
    have hup : process.mode ≠ .down := by
      rw [hmode]
      decide
    have hwaiting : life.waiting = true :=
      Bool.and_eq_true_iff.mpr ⟨hguard.right.left, Bool.not_eq_true' _ ▸ haborted⟩
    cases answer with
    | accepted =>
      cases h
      exact hs.remember .prepared hmemory ⟨hup, hwaiting, by simp⟩
    | rejected text =>
      cases h
      exact hs.record (.rejected text) hmemory rfl (fun _ => hwaiting) (Or.inr rfl)
    | raised =>
      cases h
      have hkeep := hs.remember .prepareRaised hmemory ⟨hmode, haborted⟩
      rw [← hmemory] at hkeep
      exact hkeep
  · cases h

theorem publishRow_advances {ending : CallEnd} (h : life.publishRow ending = some next) :
    Advances requestId process.mode orderly life (.publishRow ending) next := by
  revert h
  fun_cases publishRow life ending with (intro h; cases h)
  | case1 row hrow hpublishing =>
    rcases hs.stage_of_publishing hpublishing with ⟨hmemory, hmode, hwaiting, _⟩
    exact
      { sound := { hs with staged := ⟨.publish .attach, rfl, hmode, hwaiting, fun _ => rfl⟩ }
        moves := ⟨_, .publish .attach, hmemory, rfl, .row⟩
        change := Change.row _ row hrow hwaiting }
  | case2 row hrow hpublishing hconflict =>
    rw [not_or] at hconflict
    rcases Option.ne_none_iff_exists'.mp hconflict.left with ⟨other, hother⟩
    have hne : other ≠ row := by
      intro heq
      exact hconflict.right (heq ▸ hother)
    exact
      { sound := hs.aborted life.rows rfl
        moves := ⟨_, .idle, (hs.stage_of_publishing hpublishing).left, rfl, .rowAborted .done⟩
        change := Change.conflictingRow _ row other hrow hother hne }
  | case3 row hrow hpublishing appended =>
    exact
      { sound := hs.aborted _ (by split <;> rfl)
        moves := ⟨_, .idle, (hs.stage_of_publishing hpublishing).left, rfl,
          .rowAborted (.failed appended)⟩
        change := Change.failedRow _ appended row hrow }

theorem publishAttach_advances {ending : AttachEnd}
    (h : life.publishAttach process ending = some next) :
    Advances requestId process.mode orderly life (.publishAttach ending) next := by
  revert h
  fun_cases publishAttach life process ending with (intro h; cases h)
  | case1 request haccepted hpublishing builds =>
    rcases hs.stage_of_publishing hpublishing with ⟨hmemory, hmode, hwaiting, hknown⟩
    have hstate : (if builds = true then State.pendingBuild
        else State.queued) ≠ .running := by
      cases builds with
      | _ => simp
    exact
      { sound := { hs with staged := ⟨.queued _, rfl, hmode, hwaiting, haccepted, hstate⟩ }
        moves := ⟨_, .queued _, hmemory, rfl, .attached builds _ hstate⟩
        change := Change.attached _ builds _ (hknown rfl) hwaiting }
  | case2 request _ hpublishing =>
    rcases hs.stage_of_publishing hpublishing with ⟨hmemory, _, hwaiting, _⟩
    exact hs.record (.unattached _) hmemory rfl (fun _ => hwaiting) (Or.inr rfl)
  | case4 request _ hpublishing =>
    exact
      { sound := hs.aborted life.rows rfl
        moves := ⟨_, .idle, (hs.stage_of_publishing hpublishing).left, rfl, .unattached .failed⟩
        change := Change.failedAttach _ }

variable {op : LifeOp} {run : RunTask}

theorem Sound.proceed {phase : RunPhase} (hnext : RunTask.Next run op (some ⟨phase, false⟩))
    (hrun : life.memory.run = some run) (hopen : run.phase ≠ .writing)
    (hcreated : phase ≠ .created) (hphase : phase ≠ .writing) :
    Advances requestId process.mode orderly life op { life with
        memory := { life.memory with run := some ⟨phase, false⟩ } } := by
  rcases hs.staged with ⟨stage, hmemory, hfits⟩
  rw [hmemory] at hrun ⊢
  rcases run with ⟨current, cancelled⟩
  rcases Stage.of_run hrun with ⟨item, rfl, hkept⟩ | ⟨reasons, rfl⟩
  · rcases hfits with ⟨hmode, haccepted, hstate, hwaiting⟩
    have hkept' : cancelled = false := hkept
    subst hkept'
    exact hs.remember (.run item hnext) hmemory
      ⟨hmode, haccepted, hstate, iff_of_true (hwaiting.mpr hopen) hphase⟩
  · rcases hfits with ⟨hmode, hreasons, htask⟩
    refine hs.remember (.detached reasons hnext) hmemory ⟨hmode, hreasons, ?_⟩
    intro task heq
    cases heq
    exact
      { unstarted := fun hphase' => absurd hphase' hcreated
        recorded := fun hwriting => absurd hwriting hphase
        unrecorded := fun ho _ => (htask _ rfl).unrecorded ho hopen }

variable {document : Document}

theorem Sound.conclude (hnext : RunTask.Next run op (some ⟨.writing, false⟩))
    (hrun : life.memory.run = some run) (hopen : run.phase ≠ .writing)
    (hkind : document.isOutcome = true) :
    Advances requestId process.mode orderly life op { life.record document with
        memory := { life.memory with run := some ⟨.writing, false⟩ } } := by
  rcases hs.staged with ⟨stage, hmemory, hfits⟩
  rw [hmemory] at hrun ⊢
  rcases run with ⟨current, cancelled⟩
  rcases Stage.of_run hrun with ⟨item, hstage, hkept⟩ | ⟨reasons, hstage⟩
  · subst hstage
    rcases hfits with ⟨hmode, haccepted, hstate, hwaiting⟩
    have hkept' : cancelled = false := hkept
    subst hkept'
    exact hs.record (.run item hnext) hmemory hkind (fun _ => hwaiting.mpr hopen)
      ⟨hmode, haccepted, hstate, by simp [standing]⟩
  · subst hstage
    rcases hfits with ⟨hmode, hreasons, htask⟩
    refine hs.record (.detached reasons hnext) hmemory hkind
      (fun ho => (htask _ rfl).unrecorded ho hopen) ⟨hmode, hreasons, ?_⟩
    intro task heq
    cases heq
    exact
      { unstarted := by simp
        recorded := fun _ => rfl
        unrecorded := fun _ hne => absurd rfl hne }

theorem Sound.leave (hnext : RunTask.Next run op none) (hrun : life.memory.run = some run)
    (hended : run.cancelled = true ∨ run.phase = .writing) :
    Advances requestId process.mode orderly life op life.runLeft := by
  unfold runLeft
  rcases hs.staged with ⟨stage, hmemory, hfits⟩
  rw [hmemory] at hrun ⊢
  rcases run with ⟨current, cancelled⟩
  rcases Stage.of_run hrun with ⟨item, hstage, hkept⟩ | ⟨reasons, hstage⟩
  · subst hstage
    rcases hfits with ⟨_, _, _, hwaiting⟩
    have hkept' : cancelled = false := hkept
    subst hkept'
    have hwriting := hended.resolve_left Bool.false_ne_true
    have hdone : life.waiting = false := by
      apply Bool.eq_false_iff.mpr
      intro htrue
      exact hwaiting.mp htrue hwriting
    exact hs.remember (.runEnded item hnext) hmemory (Or.inr hdone)
  · subst hstage
    exact hs.remember (.detached reasons hnext) hmemory ⟨hfits.left, hfits.right.left, by simp⟩

theorem beginRun_advances (h : life.beginRun = some next) :
    Advances requestId process.mode orderly life .beginRun next := by
  revert h
  fun_cases beginRun life with (intro h; cases h)
  | case1 hrun => exact hs.proceed .begins hrun (by simp) (by simp) (by simp)

theorem executed_advances {ending : ExecutorEnd} (h : life.executed requestId ending = some next) :
    Advances requestId process.mode orderly life (.executed ending) next := by
  revert h
  fun_cases executed life requestId ending with (intro h; cases h)
  | case1 _ _ hrun => exact hs.proceed (.returned _ _) hrun (by simp) (by simp) (by simp)
  | case2 _ _ hrun => exact hs.conclude (.raised _ _) hrun (by simp) rfl

theorem pooled_advances {result : TestResult} (h : life.pooled requestId result = some next) :
    Advances requestId process.mode orderly life (.pooled result) next := by
  revert h
  fun_cases pooled life requestId result with (intro h; cases h)
  | case1 _ hrun => exact hs.conclude (.pooled _ result) hrun (by simp) rfl

theorem runCancelled_advances (h : life.runCancelled = some next) :
    Advances requestId process.mode orderly life .runCancelled next := by
  revert h
  fun_cases runCancelled life with (intro h; cases h)
  | case1 hrun =>
    rcases hs.staged with ⟨stage, hmemory, hfits⟩
    rw [hmemory] at hrun ⊢
    rcases Stage.of_run hrun with ⟨item, _, hkept⟩ | ⟨reasons, rfl⟩
    · cases hkept
    exact hs.remember (.detached reasons (.cancelled .created)) hmemory
      ⟨hfits.left, hfits.right.left, by simp⟩
  | case2 _ _ hrun => exact hs.leave (.cancelled _) hrun (Or.inl rfl)

theorem runEnd_advances (h : life.runEnd = some next) :
    Advances requestId process.mode orderly life .runEnd next := by
  revert h
  fun_cases runEnd life with (intro h; cases h)
  | case1 _ hrun => exact hs.leave (.ended _) hrun (Or.inr rfl)

theorem buildsReady_advances {now : Rat} (h : life.buildsReady now = some next) :
    Advances requestId process.mode orderly life (.buildsReady now) next := by
  revert h
  fun_cases buildsReady life now with (intro h; cases h)
  | case1 item hitem hstate =>
    rcases hs.queued_of_item hitem (by simp [hstate]) with
      ⟨hmemory, hmode, hwaiting, haccepted, _⟩
    have hadvance := hs.remember (.buildsReady item now hstate) hmemory
      ⟨hmode, hwaiting, haccepted, by simp⟩
    rw [hmemory]
    exact hadvance

theorem buildsEnded_advances {result : TestResult}
    (h : life.buildsEnded requestId result = some next) :
    Advances requestId process.mode orderly life (.buildsEnded result) next := by
  revert h
  fun_cases buildsEnded life requestId result with (intro h; cases h)
  | case1 item hitem hstate =>
    rcases hs.queued_of_item hitem (by simp [hstate]) with ⟨hmemory, _, _, _, hwaits⟩
    rw [hmemory]
    exact hs.recordIfWaiting (.buildsEnded item result hwaits) hmemory rfl
      (fun _ hdone => Or.inr hdone)

theorem withdraw_advances {reason : String} (hmode : process.mode = .running)
    (hpublishing : life.memory.publishing = none)
    (horderly : orderly -> life.inOrder (.withdraw reason) = true) :
    Advances requestId process.mode orderly life (.withdraw reason) (life.withdraw reason) := by
  rcases hs.staged with ⟨stage, hmemory, hfits⟩
  have hup : process.mode ≠ .down := by
    rw [hmode]
    decide
  unfold withdraw
  by_cases hwaiting : life.waiting = true
  · rw [if_pos hwaiting, hmemory]
    rw [hmemory] at hpublishing
    cases stage with
    | idle =>
      rcases hfits with hdown | hdone
      · exact absurd hdown hup
      · cases hwaiting.symm.trans hdone
    | recover =>
      rw [hmode] at hfits
      cases hfits.left
    | publish _ => cases hpublishing
    | queued item =>
      exact hs.record (.withdrawQueued item reason) hmemory rfl (fun _ => hwaiting) (Or.inr rfl)
    | running item phase =>
      rcases hfits with ⟨_, _, _, hphase⟩
      refine hs.remember (.withdrawRunning item phase reason) hmemory ⟨hup, by simp, ?_⟩
      intro task htask
      cases htask
      exact
        { unstarted := fun _ => rfl
          recorded := fun hwriting => absurd hwriting (hphase.mp hwaiting)
          unrecorded := fun _ _ => hwaiting }
    | withdrawing run reasons =>
      rcases hfits with ⟨_, hreasons, hdetached⟩
      refine hs.record (.withdrawAgain _ reason) hmemory rfl (fun _ => hwaiting) ⟨hup, hreasons, ?_⟩
      intro task htask
      refine ⟨(hdetached task htask).unstarted, fun _ => rfl, fun ho => ?_⟩
      subst htask
      have horder := horderly ho
      simp [inOrder, hwaiting, hmemory, Stage.memory] at horder
  · rw [if_neg hwaiting]
    have hkeep := hs.remember (.withdrawAgain stage reason) hmemory hfits
    rw [← hmemory] at hkeep
    exact hkeep

theorem resume_advances (h : life.resume = some next) :
    Advances requestId process.mode orderly life .resume next := by
  revert h
  fun_cases resume life with (intro h; cases h)
  | case1 reason rest hrun hawaiting =>
    rcases hs.staged with ⟨stage, hmemory, hfits⟩
    rw [hmemory] at hawaiting hrun ⊢
    have hstage := Stage.eq_withdrawing hawaiting
    rw [hrun] at hstage
    subst hstage
    cases rest with
    | nil =>
      exact hs.recordIfWaiting (.resumeLast reason) hmemory rfl (fun _ hdone => Or.inr hdone)
    | cons later others =>
      exact hs.recordIfWaiting (.resume reason later others) hmemory rfl
        (fun _ _ => ⟨hfits.left, by simp, by simp⟩)

section

variable (hrecorded : document ∈ life.recorded)

include hrecorded

theorem Sound.rewrite {rows : TestRows}
    (hwrite : life.rows.write requestId document = .written rows) :
    Sound requestId process.mode orderly { life with rows := rows } where
  named := hs.named
  unrecorded := by
    intro hnone
    have hempty := (hs.unrecorded hnone).left
    rw [hempty] at hrecorded
    cases hrecorded
  staged := by
    rcases hs.staged with ⟨stage, hmemory, hfits⟩
    refine ⟨stage, hmemory, ?_⟩
    unfold standing
    rw [(TestRows.write_tells hwrite).right]
    exact hfits

theorem Sound.settled : Sound requestId process.mode orderly life.settle where
  __ := hs
  unrecorded := by
    intro hnone
    have hempty := (hs.unrecorded hnone).left
    rw [hempty] at hrecorded
    cases hrecorded

theorem writeOutcome_advances {ending : CallEnd}
    (h : life.writeOutcome requestId document ending = some next) :
    Advances requestId process.mode orderly life (.writeOutcome document ending) next := by
  rcases hs.staged with ⟨stage, hmemory, _⟩
  have hmoves := Stage.Next.write stage document ending
  revert h
  fun_cases writeOutcome life requestId document ending with (intro h; cases h)
  | case1 rows hwrite =>
    exact
      { sound := (hs.rewrite hrecorded hwrite).settled hrecorded
        moves := ⟨stage, stage, hmemory, hmemory, hmoves⟩
        change := Change.written document rows hrecorded hwrite }
  | case2 hwrite =>
    exact
      { sound := hs.settled hrecorded
        moves := ⟨stage, stage, hmemory, hmemory, hmoves⟩
        change := Change.conflicting document hrecorded hwrite }
  | case4 =>
    exact
      { sound := hs
        moves := ⟨stage, stage, hmemory, hmemory, hmoves⟩
        change := Change.remember _ life.memory }
  | case5 rows hwrite =>
    exact
      { sound := hs.rewrite hrecorded hwrite
        moves := ⟨stage, stage, hmemory, hmemory, hmoves⟩
        change := Change.appended document rows hrecorded hwrite }

end

theorem step_advances (horderly : orderly -> life.inOrder op = true)
    (h : life.step requestId process op = some next) :
    Advances requestId process.mode orderly life op next := by
  cases op with
  | recoverWritten => exact recoverWritten_advances hs h
  | recoverFinal => cases (recoverFinal_eq_none hs).symm.trans h
  | recoverPrepare answer => exact recoverPrepare_advances hs h
  | publishRow ending => exact publishRow_advances hs h
  | publishAttach ending => exact publishAttach_advances hs h
  | beginRun => exact beginRun_advances hs h
  | executed ending => exact executed_advances hs h
  | pooled result => exact pooled_advances hs h
  | runCancelled => exact runCancelled_advances hs h
  | runEnd => exact runEnd_advances hs h
  | buildsReady now => exact buildsReady_advances hs h
  | buildsEnded result => exact buildsEnded_advances hs h
  | withdraw reason =>
    rcases some_of_when h with ⟨hguard, rfl⟩
    exact withdraw_advances hs hguard.left hguard.right horderly
  | resume => exact resume_advances hs h
  | writeOutcome document ending =>
    simp only [step] at h
    split at h
    · rename_i hguard
      exact writeOutcome_advances hs hguard.right h
    · cases h

end

end

/-!
## What the process does to all tests
-/

section

variable {requestId : String} {mode : Mode} {orderly : Prop} {life : Life}

theorem sound_submitted (policy : QueuePolicy) (request : TestRequest)
    (sequence : Nat) (now : Rat) :
    (submitted policy request sequence now).Sound request.requestId .running orderly where
  named := ⟨request, rfl, rfl⟩
  unrecorded := fun _ => ⟨rfl, rfl, rfl⟩
  staged := ⟨.publish .row, rfl, by decide, rfl, nofun⟩

section

variable (hs : life.Sound requestId mode orderly)

include hs

theorem Sound.moved {mode' : Mode}
    (stage : Stage) (hfits : stage.Fits mode' orderly life.standing) :
    Sound requestId mode' orderly { life with memory := stage.memory } where
  __ := hs
  staged := ⟨stage, rfl, hfits⟩

theorem Sound.accepted_of_item
    (hitem : life.memory.item = some item) : life.accepted = some item.request := by
  rcases hs.staged with ⟨stage, hmemory, hfits⟩
  rw [hmemory] at hitem
  rcases Stage.of_item hitem with hstage | ⟨phase, hstage⟩
  · subst hstage
    exact hfits.right.right.left
  · subst hstage
    exact hfits.right.left

theorem Sound.lost : life.lost.Sound requestId .down orderly :=
  hs.moved .idle (Or.inl rfl)

end

theorem Sound.memory_of_down (hs : life.Sound requestId .down orderly) : life.memory = {} := by
  rcases hs.staged with ⟨stage, hmemory, hfits⟩
  cases stage with
  | idle => exact hmemory
  | recover => cases hfits.left
  | _ => exact absurd rfl hfits.left

theorem Sound.restarted (hs : life.Sound requestId .down orderly) :
    life.restarted.Sound requestId .recovering orderly := by
  unfold Life.restarted
  split
  · rename_i hended
    have hdone : life.waiting = false := by
      rcases Bool.or_eq_true_iff.mp hended with haborted | hsettled
      · unfold waiting LogEntry.waiting
        rw [haborted]
        exact Bool.and_false _
      · cases houtcome : life.outcome with
        | some document =>
          exact waiting_of_outcome (by rw [houtcome]; rfl)
        | none =>
          rw [(hs.unrecorded houtcome).right.right] at hsettled
          cases hsettled
    exact { hs with staged := ⟨.idle, hs.memory_of_down, Or.inr hdone⟩ }
  · rename_i hopen
    rw [Bool.not_eq_true, Bool.or_eq_false_iff] at hopen
    exact hs.moved .recover ⟨rfl, hopen.left⟩

theorem Sound.running (hs : life.Sound requestId .recovering orderly)
    (hrecovered : life.memory.toRecover = false) : life.Sound requestId .running orderly := by
  rcases hs.staged with ⟨stage, hmemory, hfits⟩
  have hfits' : stage.Fits .running orderly life.standing := by
    rw [hmemory] at hrecovered
    cases stage with
    | idle =>
      rcases hfits with hdown | hdone
      · cases hdown
      · exact Or.inr hdone
    | recover => cases hrecovered
    | _ => exact ⟨by decide, hfits.right⟩
  exact { hs with staged := ⟨stage, hmemory, hfits'⟩ }

theorem Sound.reprioritised (hs : life.Sound requestId mode orderly)
    (policy : QueuePolicy) : (life.reprioritised policy).Sound requestId mode orderly := by
  rcases hs.staged with ⟨stage, hmemory, hfits⟩
  unfold Life.reprioritised
  rw [hmemory]
  cases stage with
  | queued item =>
    rcases hfits with ⟨hmode, hwaiting, haccepted, hstate⟩
    apply hs.moved (.queued (item.reprioritise policy))
    rw [← item.reprioritise_request policy] at haccepted
    exact ⟨hmode, hwaiting, haccepted, (item.reprioritise_state policy).symm ▸ hstate⟩
  | running item phase =>
    rcases hfits with ⟨hmode, haccepted, hstate, hphase⟩
    apply hs.moved (.running (item.reprioritise policy) phase)
    rw [← item.reprioritise_request policy] at haccepted
    exact ⟨hmode, haccepted, (item.reprioritise_state policy).trans hstate, hphase⟩
  | idle => exact hs.moved .idle hfits
  | recover => exact hs.moved .recover hfits
  | publish next => exact hs.moved (.publish next) hfits
  | withdrawing run reasons => exact hs.moved (.withdrawing run reasons) hfits

theorem Sound.started (hs : life.Sound requestId mode orderly)
    (hitem : life.memory.item = some item) (hstate : item.state = .queued) :
    life.started.Sound requestId mode orderly := by
  rcases hs.queued_of_item hitem (by simp [hstate]) with ⟨hmemory, hmode, hwaiting, haccepted, _⟩
  unfold Life.started
  rw [hmemory]
  apply hs.moved (.running { item with state := .running } .created)
  exact ⟨hmode, haccepted, rfl, iff_of_true hwaiting (by simp)⟩

end

end Life

end Toolbox
end Hyperloom
