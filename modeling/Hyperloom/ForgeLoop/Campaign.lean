import Hyperloom.Library.Machine
import Hyperloom.ForgeLoop.Replay
import Hyperloom.ForgeLoop.Scoring

/-!
# The bar of a campaign

The score a candidate has to beat is held in memory.  A session takes it from
its anchor, moves it at every KEEP and loses it when it is killed; a resume
rebuilds it from the run state and the journal of a KEEP that was under way.
The cases a bar or a best is the mean over are carried beside the code's state.
-/

namespace Hyperloom
namespace ForgeLoop

open Library

/-!
## Deciding a KEEP
-/

structure Setup where
  numerics : Numerics
  policy : StallPolicy := {}
  assembly : Bool := false
  pristineWallMs : Option Rat := none
  baseline : CaseTimes
  baselineUnscored : List String := []

structure Attempt where
  outputs : List DriverOutput
  sigma : SigmaResolution := {}
  /-- The verdict of the task's suite, which only assembly runs. -/
  suitePassed : Bool := true
  plan : String := ""

structure Kept where
  iteration : Nat
  bench : Bench
  score : Rat
  plan : String

variable (loop : LoopMemory)

/-- `best_mean_case_speedup or 1.0`. -/
def LoopMemory.bar : Rat :=
  match loop.bestMeanCaseSpeedup with
  | none => 1
  | some score => if score = 0 then 1 else score

variable (setup : Setup)

def Setup.given (external : Bool) : CaseTimes :=
  if external then setup.baseline else []

def Setup.clearsKeepBar (loop : LoopMemory) (bench : Bench)
    (scores : List Rat) (sigma : SigmaResolution) : Bool :=
  passesKeepThreshold setup.numerics loop.bar scores sigma &&
    (!setup.assembly || setup.pristineWallMs.any fun source => decide (bench.medianMs < source))

/-- `_decide_iteration_keep`, when its verdict is a KEEP. -/
def Setup.decideKeep (loop : LoopMemory) (attempt : Attempt) (iteration : Nat) : Option Kept :=
  match measureWallclock attempt.outputs with
  | .error _ => none
  | .ok bench =>
    match calculateMeasurementCaseSpeedups bench loop.baselineCaseTimes with
    | .error _ => none
    | .ok scores =>
      if setup.clearsKeepBar loop bench scores attempt.sigma &&
          (!setup.assembly || attempt.suitePassed) then
        some
          { iteration := iteration, bench := bench, score := mean scores
            plan := attempt.plan }
      else none

/-!
## The state of a campaign
-/

structure PendingKeep where
  baseHead : String
  kept : Kept

/-- Where the session stands in `_commit_keep`. -/
inductive Stage where
  | idle
  | journaled (pending : PendingKeep)
  | committed (pending : PendingKeep)
  | promoted (pending : PendingKeep)
  | recorded
  | measured (kept : Kept)

structure Session where
  loop : LoopMemory
  stage : Stage := .idle
  barCases : List String

structure Campaign where
  state : RunState
  pending : Option PendingKeep := none
  head : String
  session : Option Session
  bestCases : List String

def LoopMemory.promoteBest (kept : Kept) : LoopMemory :=
  { loop with
    bestWallMs := some kept.bench.medianMs
    bestMeanCaseSpeedup := some kept.score
    bestCaseTimes :=
      if kept.bench.caseTimes = [] then loop.bestCaseTimes
      else kept.bench.caseTimes }

def LoopMemory.persist (state : RunState) : RunState :=
  { state with
    baselineCaseTimes := loop.baselineCaseTimes
    bestCaseTimes := loop.bestCaseTimes
    unscoredCases := loop.unscoredCases }

def RunState.recordKeep (state : RunState) (kept : Kept)
    (commit head : String) (policy : StallPolicy) : Option RunState :=
  (state.applyIteration
    { iteration := kept.iteration, decision := .keep, kept := true
      wallMs := some kept.bench.medianMs, commitHash := commit
      plan := kept.plan, meanCaseSpeedup := some kept.score }
    { baselineWallMs := state.baselineWallMs
      bestWallMs := some kept.bench.medianMs
      bestMeanCaseSpeedup := some kept.score } policy).map fun reduced =>
    { reduced with agentRelay := reduced.agentRelay.keep, headCommit := head }

def incumbentMeanCaseSpeedup (times baseline : CaseTimes) (unscored : List String) : Option Rat :=
  if times = [] then some 1
  else
    match calculateMeanCaseSpeedup times baseline unscored with
    | .error _ => none
    | .ok score => some (score.getD 1)

namespace Campaign

variable (s : Campaign)

def anchor : String :=
  if s.state.best.commitHash = "" then s.state.headCommit
  else s.state.best.commitHash

def shouldResume : Bool :=
  s.state.best.commitHash != "" && s.state.best.meanCaseSpeedup.isSome &&
    s.head == s.state.best.commitHash

def hydrate (stage : Stage) : Option Campaign :=
  (incumbentMeanCaseSpeedup s.state.bestCaseTimes s.state.baselineCaseTimes
    s.state.unscoredCases).map fun incumbent =>
    { s with
      session := some
        { stage := stage
          loop :=
            { baselineWallMs := s.state.baselineWallMs
              bestWallMs :=
                if s.shouldResume then s.state.best.wallMs
                else s.state.baselineWallMs
              bestMeanCaseSpeedup :=
                if s.shouldResume then s.state.best.meanCaseSpeedup
                else some incumbent
              baselineCaseTimes := s.state.baselineCaseTimes
              bestCaseTimes := s.state.bestCaseTimes
              unscoredCases := s.state.unscoredCases }
          barCases :=
            if s.shouldResume then s.bestCases
            else scoredCases s.state.baselineCaseTimes s.state.unscoredCases } }

def keptCases (kept : Kept) : List String :=
  scoredCases s.state.baselineCaseTimes kept.bench.unscored

def recordKeep (kept : Kept) (commit : String) (policy : StallPolicy) : Option Campaign :=
  (s.state.recordKeep kept commit s.head policy).map fun state =>
    { s with state := state, bestCases := s.keptCases kept }

/-- `_promote_best` of a process that was started with the baseline `given`. -/
def promoteRecovered (given : CaseTimes) (kept : Kept) : Campaign :=
  { s with
    state :=
      { s.state with
        baselineCaseTimes := given
        bestCaseTimes :=
          if kept.bench.caseTimes = [] then s.state.bestCaseTimes
          else kept.bench.caseTimes } }

/-- `_restore_resume_baseline_case_times`, which raises after what is saved,
and the anchoring. -/
def restore (given : CaseTimes) (stage : Stage) : Option Campaign :=
  if s.state.baselineCaseTimes = [] ∨ (given ≠ [] ∧ given ≠ s.state.baselineCaseTimes) then some s
  else s.hydrate stage

/-- `_restore_or_begin_campaign` of a resume. -/
def resume (policy : StallPolicy) (given : CaseTimes) : Option Campaign :=
  if s.state.baselineCaseTimes = [] then none
  else
    match s.pending with
    | none =>
      if s.head = s.anchor ∧ s.head ≠ "" then s.restore given .idle else none
    | some pending =>
      let finalized := s.state.best.iteration = pending.kept.iteration ∧
        s.state.best.commitHash = s.head
      if ¬ finalized ∧ (s.state.nextIteration ≠ pending.kept.iteration ∨
          pending.baseHead ≠ s.anchor) then none
      else if s.head = pending.baseHead then
        { s with
          pending := none
          state := { s.state with headCommit := s.head } }.restore given .idle
      else if pending.kept.iteration < s.state.nextIteration then
        if finalized ∧ s.state.best.wallMs = some pending.kept.bench.medianMs ∧
            s.state.best.meanCaseSpeedup = some pending.kept.score then
          (s.promoteRecovered given pending.kept).restore given .recorded
        else none
      else
        (s.recordKeep pending.kept s.head policy).bind fun t =>
          (t.promoteRecovered given pending.kept).restore given .recorded

/-- `demote` is the commit of a journaled KEEP that fails, and `measure` a KEEP
without a diff.  A process that resumes was started with the campaign's baseline
or with none. -/
inductive Label where
  | reject (result : Reverted)
  | journal (attempt : Attempt)
  | commit (hash : String)
  | demote
  | promote
  | record
  | clear
  | measure (attempt : Attempt)
  | recordMeasured
  | kill
  | resume (external : Bool)

def step (setup : Setup) (s : Campaign) (label : Label) : Option Campaign :=
  match s.session with
  | none =>
    match label with
    | .resume external => s.resume setup.policy (setup.given external)
    | _ => none
  | some session =>
    match label, session.stage with
    | .reject result, .idle =>
      (session.loop.recordOutcome s.state result setup.policy).map
        fun state => { s with state := { state with headCommit := s.head } }
    | .journal attempt, .idle =>
      (setup.decideKeep session.loop attempt s.state.nextIteration).map
        fun kept =>
          let pending := { baseHead := s.head, kept := kept }
          { s with
            pending := some pending
            session := some { session with stage := .journaled pending } }
    | .commit hash, .journaled pending =>
      if hash ≠ "" ∧ hash ≠ s.head then
        some { s with
            head := hash
            session := some { session with stage := .committed pending } }
      else none
    | .demote, .journaled _ =>
      some { s with
          pending := none, session := some { session with stage := .idle } }
    | .promote, .committed pending =>
      let loop := session.loop.promoteBest pending.kept
      some { s with
          state := loop.persist s.state
          session := some
            { loop := loop, stage := .promoted pending
              barCases := s.keptCases pending.kept } }
    | .record, .promoted pending =>
      (s.recordKeep pending.kept s.head setup.policy).map fun t =>
        { t with session := some { session with stage := .recorded } }
    | .clear, .recorded =>
      some { s with
          pending := none, session := some { session with stage := .idle } }
    | .measure attempt, .idle =>
      (setup.decideKeep session.loop attempt s.state.nextIteration).map
        fun kept =>
          let loop := session.loop.promoteBest kept
          { s with
            state := loop.persist s.state
            session := some
              { loop := loop, stage := .measured kept
                barCases := s.keptCases kept } }
    | .recordMeasured, .measured kept =>
      (s.recordKeep kept "" setup.policy).map fun t =>
        { t with session := some { session with stage := .idle } }
    | .kill, _ => some { s with session := none }
    | _, _ => none

inductive Moves (setup : Setup) (s : Campaign) : Label -> Campaign -> Prop where
  | reject {session : Session} {result : Reverted} {state : RunState} :
    s.session = some session -> session.stage = .idle ->
    session.loop.recordOutcome s.state result setup.policy = some state ->
    Moves setup s (.reject result) { s with state := { state with headCommit := s.head } }
  | journal {session : Session} {attempt : Attempt} {kept : Kept} :
    s.session = some session -> session.stage = .idle ->
    setup.decideKeep session.loop attempt s.state.nextIteration = some kept ->
    Moves setup s (.journal attempt) { s with
        pending := some { baseHead := s.head, kept := kept }
        session := some { session with
            stage := .journaled { baseHead := s.head, kept := kept } } }
  | commit {session : Session} {hash : String} {pending : PendingKeep} :
    s.session = some session -> session.stage = .journaled pending -> hash ≠ "" -> hash ≠ s.head ->
    Moves setup s (.commit hash) { s with
        head := hash
        session := some { session with stage := .committed pending } }
  | demote {session : Session} {pending : PendingKeep} :
    s.session = some session -> session.stage = .journaled pending -> Moves setup s .demote { s with
        pending := none, session := some { session with stage := .idle } }
  | promote {session : Session} {pending : PendingKeep} :
    s.session = some session -> session.stage = .committed pending -> Moves setup s .promote
      { s with
        state := (session.loop.promoteBest pending.kept).persist s.state
        session := some
          { loop := session.loop.promoteBest pending.kept
            stage := .promoted pending
            barCases := s.keptCases pending.kept } }
  | record {session : Session} {pending : PendingKeep} {t : Campaign} :
    s.session = some session -> session.stage = .promoted pending ->
    s.recordKeep pending.kept s.head setup.policy = some t ->
    Moves setup s .record { t with session := some { session with stage := .recorded } }
  | clear {session : Session} : s.session = some session -> session.stage = .recorded ->
    Moves setup s .clear { s with
        pending := none, session := some { session with stage := .idle } }
  | measure {session : Session} {attempt : Attempt} {kept : Kept} :
    s.session = some session -> session.stage = .idle ->
    setup.decideKeep session.loop attempt s.state.nextIteration = some kept ->
    Moves setup s (.measure attempt) { s with
        state := (session.loop.promoteBest kept).persist s.state
        session := some
          { loop := session.loop.promoteBest kept, stage := .measured kept
            barCases := s.keptCases kept } }
  | recordMeasured {session : Session} {kept : Kept} {t : Campaign} :
    s.session = some session -> session.stage = .measured kept ->
    s.recordKeep kept "" setup.policy = some t ->
    Moves setup s .recordMeasured { t with session := some { session with stage := .idle } }
  | kill : Moves setup s .kill { s with session := none }
  | resume {external : Bool} {t : Campaign} : s.session = none ->
    s.resume setup.policy (setup.given external) = some t -> Moves setup s (.resume external) t

theorem moves_of_step {setup : Setup} {s t : Campaign} {label : Label}
    (h : s.step setup label = some t) : Moves setup s label t := by
  revert h
  fun_cases step setup s label with (intro h; try cases h)
  | case1 hsession => exact .resume hsession h
  | case3 session hsession result hstage =>
    rcases Option.map_eq_some_iff.mp h with ⟨state, hstate, rfl⟩
    exact .reject hsession hstage hstate
  | case4 session hsession attempt hstage =>
    rcases Option.map_eq_some_iff.mp h with ⟨kept, hkept, rfl⟩
    exact .journal hsession hstage hkept
  | case5 session hsession hash pending hstage hhash =>
    exact .commit hsession hstage hhash.1 hhash.2
  | case7 session hsession pending hstage => exact .demote hsession hstage
  | case8 session hsession pending hstage => exact .promote hsession hstage
  | case9 session hsession pending hstage =>
    rcases Option.map_eq_some_iff.mp h with ⟨next, hnext, rfl⟩
    exact .record hsession hstage hnext
  | case10 session hsession hstage => exact .clear hsession hstage
  | case11 session hsession attempt hstage =>
    rcases Option.map_eq_some_iff.mp h with ⟨kept, hkept, rfl⟩
    exact .measure hsession hstage hkept
  | case12 session hsession kept hstage =>
    rcases Option.map_eq_some_iff.mp h with ⟨next, hnext, rfl⟩
    exact .recordMeasured hsession hstage hnext
  | case13 => exact .kill

end Campaign

/-!
## How a campaign starts
-/

variable (setup : Setup)

/-- `_anchor_speedup_reporting` of a fresh run over the kernel it was given. -/
def Setup.fresh (times : CaseTimes) (head : String) (score : Rat) : Campaign where
  state :=
    { baselineCaseTimes := setup.baseline, bestCaseTimes := times
      unscoredCases := setup.baselineUnscored, headCommit := head }
  head := head
  bestCases := scoredCases setup.baseline setup.baselineUnscored
  session := some
    { loop :=
        { baselineWallMs := none, bestWallMs := none
          bestMeanCaseSpeedup := some score
          baselineCaseTimes := setup.baseline, bestCaseTimes := times
          unscoredCases := setup.baselineUnscored }
      barCases := scoredCases setup.baseline setup.baselineUnscored }

/-- `_adopt_validated_warm_start`. -/
def Setup.warm (times : CaseTimes) (unscored : List String)
    (head : String) (score : Rat) : Campaign where
  state :=
    { baselineCaseTimes := setup.baseline, bestCaseTimes := times
      unscoredCases := unscored, headCommit := head
      best :=
        { meanCaseSpeedup := some score, commitHash := head
          source := "warm_start" } }
  head := head
  bestCases := scoredCases setup.baseline unscored
  session := some
    { loop :=
        { baselineWallMs := none, bestWallMs := none
          bestMeanCaseSpeedup := some score
          baselineCaseTimes := setup.baseline, bestCaseTimes := times
          unscoredCases := unscored }
      barCases := scoredCases setup.baseline unscored }

/-- The score a campaign starts from: that of the kernel it was given, or of
the warm start it adopts. -/
inductive Setup.Starts (setup : Setup) (start : Rat) : Campaign -> Prop where
  | fresh (times : CaseTimes) (head : String)
    (hscore : incumbentMeanCaseSpeedup times setup.baseline setup.baselineUnscored = some start) :
    Starts setup start (setup.fresh times head start)
  | warm (times : CaseTimes) (unscored : List String) (head : String)
    (h : head ≠ "") (hscore : 0 < start) :
    Starts setup start (setup.warm times unscored head start)

def campaign : Machine Campaign Campaign.Label where
  init s := exists start, setup.Starts start s
  step := Campaign.step setup

end ForgeLoop
end Hyperloom
