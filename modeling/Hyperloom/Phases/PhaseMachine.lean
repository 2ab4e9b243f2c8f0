import Hyperloom.Library.Machine
import Hyperloom.Phases.Decision

/-!
# The phase machine

The part of the shared state the phase machine owns, what a tick, the start of
a leg and the deadline path do to it, and the runs of a session over any number
of legs.  A tick brings the predicate inputs frozen in the phase the state is
in; everything else about them is left to the environment.
-/

namespace Hyperloom
namespace Phases

open Storage Library

/-!
## State
-/

/-- A row of `phase_history`: the entry of a fresh session, the reopening of a
closed one, or a move with the inputs it was decided on. -/
inductive PhaseRow where
  | entered
  | reopened
  | committed (source : Phase) (inputs : PredicateInputs) (move : Transition)

/-- The fields of the shared state the machine reads and writes, and whether a
leg is running.  The history is kept whole; the source drops its oldest rows. -/
structure PhaseState where
  live : Bool
  phase : Option Phase
  macroCycle : Int
  noGainCycleStreak : Int
  gainAtCycleStart : Rat
  cumulativeGainValidated : Rat
  stopReason : String
  pendingEscalateHint : Option EscalateHint
  closeSequenceDone : Bool
  phaseHistory : List PhaseRow

variable (state : PhaseState)

/-- `record_phase_transition`, without its clocks. -/
def recordPhaseTransition (target : Phase) (row : PhaseRow) : PhaseState :=
  { state with phase := some target, phaseHistory := state.phaseHistory ++ [row] }

def openMacroCycle (noGainCycleStreak : Int) : PhaseState :=
  { state with
    macroCycle := state.macroCycle + 1
    noGainCycleStreak := noGainCycleStreak
    gainAtCycleStart := state.cumulativeGainValidated }

/-!
## The start of a leg
-/

def reopen : PhaseState :=
  let opened := openMacroCycle state state.noGainCycleStreak
  { recordPhaseTransition opened .prelude .reopened with closeSequenceDone := false }

/-- `ensure_phase_initialised`; the phase is one this build knows. -/
def ensurePhaseInitialised : PhaseState :=
  match state.phase with
  | none => recordPhaseTransition state .prelude .entered
  | some .close => reopen state
  | some _ => state

/-!
## Committing a transition
-/

/-- `_BUDGET_EXIT_STOP_REASONS.get(reason, reason)`. -/
def budgetExitStopReason (reason : String) : String :=
  if reason = "sweep_budget_exhausted" then "time_exhausted" else reason

/-- `set_terminal_stop_reason`; none where `set_stop_reason` raises. -/
def setTerminalStopReason (reason : String) : Option PhaseState :=
  if state.stopReason ≠ "" then some state
  else if budgetExitStopReason reason = "" then some state
  else if isValidStopReason (budgetExitStopReason reason) then
    some { state with stopReason := budgetExitStopReason reason }
  else none

namespace Transition

def isLoopback (move : Transition) : Bool :=
  match move.evidence.lookup "loopback" with
  | some (.bool b) => b
  | _ => false

/-- `move.evidence.get("no_gain_cycle_streak_effective")`. -/
def effectiveStreak (move : Transition) : Option Int :=
  match move.evidence.lookup "no_gain_cycle_streak_effective" with
  | some (.int n) => some n
  | _ => none

end Transition

variable (state : PhaseState)

def carryCycleFactsAcross (move : Transition) : PhaseState :=
  if !move.isLoopback && move.target = .close then
    { state with noGainCycleStreak := move.effectiveStreak.getD state.noGainCycleStreak }
  else state

variable (source : Phase)

/-- The move itself: the row, and the next macro-cycle after a loopback. -/
def applyTransition (inputs : PredicateInputs) (move : Transition) : PhaseState :=
  let moved := recordPhaseTransition (carryCycleFactsAcross state move)
    move.target (.committed source inputs move)
  if move.isLoopback then openMacroCycle moved (move.effectiveStreak.getD 0)
  else moved

/-- `_commit_transition`: a stop reason outside the vocabulary raises before
anything is recorded. -/
def commitTransition (inputs : PredicateInputs) (move : Transition) : PhaseState :=
  let settled := { state with pendingEscalateHint := none }
  if move.target = .close then
    match setTerminalStopReason settled move.reason with
    | some stopped => applyTransition stopped source inputs move
    | none => settled
  else applyTransition settled source inputs move

/-- `_next_phase`: a leverage exit waits for pending operator work. -/
def nextPhase (inputs : PredicateInputs) (operatorWorkPending : Bool) : Option Transition :=
  match replayNextPhase inputs with
  | none => none
  | some move =>
    if inputs.currentPhase = .frameworkAgent ∧
        move.reason = "optimize_no_more_leverage" ∧ operatorWorkPending then
      none
    else some move

def advancePhaseIfNeeded (inputs : PredicateInputs) (operatorWorkPending drained : Bool) :
    PhaseState :=
  if inputs.globals.closingPhase ∧ source = .close ∧ state.closeSequenceDone = false then
    { state with closeSequenceDone := true }
  else
    match nextPhase inputs operatorWorkPending with
    | none => state
    | some move =>
      if move.target ≠ source ∧ drained then
        commitTransition state source inputs move
      else state

/-- `_record_terminal_close_transition`: the deadline path records CLOSE
without committing it; it asserts that CLOSE is what the inputs decide. -/
def recordTerminalCloseTransition (inputs : PredicateInputs) : PhaseState :=
  if source = .close then state
  else
    match replayNextPhase inputs with
    | none => state
    | some move =>
      if move.target = .close then
        match setTerminalStopReason state move.reason with
        | none => state
        | some stopped =>
          recordPhaseTransition { stopped with pendingEscalateHint := none }
            .close (.committed source inputs move)
      else state

/-!
## Runs
-/

/-- A leg starts or ends, a tick advances the phase, the deadline path closes,
or the rest of the coordinator writes what the machine reads. -/
inductive PhaseOp where
  | legStart
  | legEnd
  | advance (inputs : PredicateInputs) (operatorWorkPending drained : Bool)
  | terminalClose (inputs : PredicateInputs)
  | outside (cumulativeGainValidated : Rat) (stopReason : String) (hint : Option EscalateHint)

/-- Run `f` in the phase a running leg is in, with inputs frozen there. -/
def inPhase (inputs : PredicateInputs) (f : Phase -> PhaseState) : Option PhaseState :=
  match state.phase with
  | none => none
  | some source =>
    if state.live ∧ inputs.currentPhase = source then some (f source) else none

def phaseStep : PhaseOp -> Option PhaseState
  | .legStart =>
    if state.live then none
    else some (ensurePhaseInitialised { state with live := true })
  | .legEnd => if state.live then some { state with live := false } else none
  | .advance inputs operatorWorkPending drained =>
    inPhase state inputs (fun source =>
      advancePhaseIfNeeded state source inputs operatorWorkPending drained)
  | .terminalClose inputs =>
    inPhase state inputs (fun source =>
      recordTerminalCloseTransition state source inputs)
  | .outside gain stopReason hint =>
    some { state with
      cumulativeGainValidated := gain
      stopReason := stopReason
      pendingEscalateHint := hint }

/-- A session before one of its legs, at any recorded phase. -/
def phaseMachine : Machine PhaseState PhaseOp where
  init state := state.live = false ∧ state.phaseHistory = []
  step := phaseStep

/-!
## What one step can do

A step keeps the phase, enters or reopens a session at the start of a leg, or
commits a decision.  Each case says what becomes of the macro-cycle.
-/

def PhaseOp.inputs : PhaseOp -> Option PredicateInputs
  | .advance inputs _ _ => some inputs
  | .terminalClose inputs => some inputs
  | _ => none

structure SameCycle (s t : PhaseState) : Prop where
  macroCycle : t.macroCycle = s.macroCycle
  gainAtCycleStart : t.gainAtCycleStart = s.gainAtCycleStart

structure NextCycle (s t : PhaseState) : Prop where
  macroCycle : t.macroCycle = s.macroCycle + 1
  gainAtCycleStart : t.gainAtCycleStart = s.cumulativeGainValidated

structure CommitsMove (s t : PhaseState) (source : Phase)
    (inputs : PredicateInputs) (move : Transition) : Prop where
  before : s.phase = some source
  frozen : inputs.currentPhase = source
  decided : Decided inputs move
  after : t.phase = some move.target
  history : t.phaseHistory = s.phaseHistory ++ [.committed source inputs move]

inductive PhaseEffect (s : PhaseState) (a : PhaseOp) (t : PhaseState) : Prop where
  | keeps : t.phase = s.phase -> t.phaseHistory = s.phaseHistory -> SameCycle s t ->
    t.noGainCycleStreak = s.noGainCycleStreak -> PhaseEffect s a t
  | enters : a = .legStart -> s.phase = none -> t.phase = some .prelude ->
    t.phaseHistory = s.phaseHistory ++ [.entered] -> SameCycle s t ->
    t.noGainCycleStreak = s.noGainCycleStreak -> PhaseEffect s a t
  | reopens : a = .legStart -> s.phase = some .close -> t.phase = some .prelude ->
    t.phaseHistory = s.phaseHistory ++ [.reopened] -> NextCycle s t ->
    t.noGainCycleStreak = s.noGainCycleStreak -> PhaseEffect s a t
  | moves (source : Phase) (inputs : PredicateInputs) (move : Transition) :
    a.inputs = some inputs -> CommitsMove s t source inputs move ->
    move.isLoopback = false -> SameCycle s t -> t.noGainCycleStreak = s.noGainCycleStreak ∨
      t.noGainCycleStreak = move.effectiveStreak.getD s.noGainCycleStreak -> PhaseEffect s a t
  | loops (source : Phase) (inputs : PredicateInputs) (move : Transition) :
    a.inputs = some inputs -> CommitsMove s t source inputs move ->
    move.isLoopback = true -> NextCycle s t ->
    t.noGainCycleStreak = move.effectiveStreak.getD 0 -> PhaseEffect s a t

theorem PhaseEffect.refl (s : PhaseState) (a : PhaseOp) : PhaseEffect s a s :=
  PhaseEffect.keeps rfl rfl ⟨rfl, rfl⟩ rfl

theorem ensurePhaseInitialised_effect (s : PhaseState) :
    PhaseEffect s .legStart (ensurePhaseInitialised { s with live := true }) := by
  unfold ensurePhaseInitialised
  split
  · rename_i hphase
    exact PhaseEffect.enters rfl hphase rfl rfl ⟨rfl, rfl⟩ rfl
  · rename_i hphase
    exact PhaseEffect.reopens rfl hphase rfl rfl ⟨rfl, rfl⟩ rfl
  · exact PhaseEffect.keeps rfl rfl ⟨rfl, rfl⟩ rfl

/-- Two states that differ in the stop reason and the hint only. -/
structure AlikeButReason (s t : PhaseState) : Prop where
  phase : t.phase = s.phase
  phaseHistory : t.phaseHistory = s.phaseHistory
  macroCycle : t.macroCycle = s.macroCycle
  gainAtCycleStart : t.gainAtCycleStart = s.gainAtCycleStart
  cumulativeGainValidated : t.cumulativeGainValidated = s.cumulativeGainValidated
  noGainCycleStreak : t.noGainCycleStreak = s.noGainCycleStreak

variable {s t : PhaseState}

theorem setTerminalStopReason_alike {reason : String}
    (h : setTerminalStopReason s reason = some t) : AlikeButReason s t := by
  revert h
  fun_cases setTerminalStopReason s reason with (intro h; cases h)
  | _ => exact ⟨rfl, rfl, rfl, rfl, rfl, rfl⟩

variable {inputs : PredicateInputs} {a : PhaseOp} {source : Phase} {move : Transition}

theorem nextPhase_decided {pending : Bool}
    (h : nextPhase inputs pending = some move) : Decided inputs move := by
  revert h
  fun_cases nextPhase inputs pending with (intro h; cases h)
  | case3 _ hdecision => exact replayNextPhase_decided hdecision

theorem isLoopback_of_plain {reason : String} {target : Phase}
    {evidence : Evidence} (h : evidence.lookup "loopback" = none) :
    Transition.isLoopback ⟨target, reason, evidence⟩ = false := by
  unfold Transition.isLoopback
  rw [h]

theorem not_isLoopback_of_close (hdecided : Decided inputs move)
    (htarget : move.target = .close) : move.isLoopback = false := by
  cases hdecided with
  | closes _ hplain => exact isLoopback_of_plain hplain.1
  | converges _ hloop _ => exact isLoopback_of_plain hloop
  | anchors _ _ hplain => exact isLoopback_of_plain hplain.1
  | _ => cases htarget

section

variable (hop : a.inputs = some inputs) (hsource : s.phase = some source)
  (hinputs : inputs.currentPhase = source)

include hop hsource hinputs

theorem applyTransition_effect {stopped : PhaseState} (hdecided : Decided inputs move)
    (halike : AlikeButReason s stopped) :
    PhaseEffect s a (applyTransition stopped source inputs move) := by
  unfold applyTransition carryCycleFactsAcross
  cases hloop : move.isLoopback with
  | true =>
    refine PhaseEffect.loops source inputs move hop ?_ hloop ?_ rfl
    · refine ⟨hsource, hinputs, hdecided, rfl, ?_⟩
      exact congrArg (fun rows => rows ++ _) halike.phaseHistory
    · constructor
      · exact congrArg (fun cycle => cycle + 1) halike.macroCycle
      · exact halike.cumulativeGainValidated
  | false =>
    by_cases htarget : move.target = .close
    · rw [htarget]
      refine PhaseEffect.moves source inputs move hop ?_ hloop ?_ (Or.inr ?_)
      · refine ⟨hsource, hinputs, hdecided, congrArg some htarget.symm, ?_⟩
        exact congrArg (fun rows => rows ++ _) halike.phaseHistory
      · exact ⟨halike.macroCycle, halike.gainAtCycleStart⟩
      · exact congrArg move.effectiveStreak.getD halike.noGainCycleStreak
    · simp only [htarget]
      refine PhaseEffect.moves source inputs move hop ?_ hloop ?_ (Or.inl ?_)
      · refine ⟨hsource, hinputs, hdecided, rfl, ?_⟩
        exact congrArg (fun rows => rows ++ _) halike.phaseHistory
      · exact ⟨halike.macroCycle, halike.gainAtCycleStart⟩
      · exact halike.noGainCycleStreak

theorem commitTransition_effect (hdecided : Decided inputs move) :
    PhaseEffect s a (commitTransition s source inputs move) := by
  unfold commitTransition
  dsimp only
  split
  · split
    · rename_i stopped hstopped
      have halike := setTerminalStopReason_alike hstopped
      exact applyTransition_effect hop hsource hinputs hdecided { halike with }
    · exact PhaseEffect.keeps rfl rfl ⟨rfl, rfl⟩ rfl
  · exact applyTransition_effect hop hsource hinputs hdecided ⟨rfl, rfl, rfl, rfl, rfl, rfl⟩

theorem advancePhaseIfNeeded_effect {pending drained : Bool} :
    PhaseEffect s a (advancePhaseIfNeeded s source inputs pending drained) := by
  fun_cases advancePhaseIfNeeded s source inputs pending drained with
  | case1 => exact PhaseEffect.keeps rfl rfl ⟨rfl, rfl⟩ rfl
  | case3 _ move hmove =>
    exact commitTransition_effect hop hsource hinputs (nextPhase_decided hmove)
  | _ => exact PhaseEffect.refl s a

theorem recordTerminalCloseTransition_effect :
    PhaseEffect s a (recordTerminalCloseTransition s source inputs) := by
  fun_cases recordTerminalCloseTransition s source inputs with
  | case4 _ move hmove htarget stopped hstopped =>
    have hdecided := replayNextPhase_decided hmove
    have halike := setTerminalStopReason_alike hstopped
    refine PhaseEffect.moves source inputs move hop ?_
      (not_isLoopback_of_close hdecided htarget) ?_ (Or.inl ?_)
    · refine ⟨hsource, hinputs, hdecided, congrArg some htarget.symm, ?_⟩
      exact congrArg (fun rows => rows ++ _) halike.phaseHistory
    · exact ⟨halike.macroCycle, halike.gainAtCycleStart⟩
    · exact halike.noGainCycleStreak
  | _ => exact PhaseEffect.refl s a

end

theorem inPhase_eq_some {f : Phase -> PhaseState} (h : inPhase s inputs f = some t) :
    exists source, s.phase = some source ∧ inputs.currentPhase = source ∧
      s.live = true ∧ f source = t := by
  unfold inPhase at h
  split at h
  · cases h
  rename_i source hsource
  rcases some_of_when h with ⟨hready, rfl⟩
  exact ⟨source, hsource, hready.2, hready.1, rfl⟩

theorem phaseStep_effect (h : phaseStep s a = some t) : PhaseEffect s a t := by
  cases a with
  | legStart =>
    rcases some_of_guard h with ⟨_, rfl⟩
    exact ensurePhaseInitialised_effect s
  | legEnd =>
    rcases some_of_when h with ⟨_, rfl⟩
    exact PhaseEffect.keeps rfl rfl ⟨rfl, rfl⟩ rfl
  | advance inputs pending drained =>
    rcases inPhase_eq_some h with ⟨source, hsource, hinputs, _, rfl⟩
    exact advancePhaseIfNeeded_effect rfl hsource hinputs
  | terminalClose inputs =>
    rcases inPhase_eq_some h with ⟨source, hsource, hinputs, _, rfl⟩
    exact recordTerminalCloseTransition_effect rfl hsource hinputs
  | outside gain stopReason hint =>
    cases h
    exact PhaseEffect.keeps rfl rfl ⟨rfl, rfl⟩ rfl

end Phases
end Hyperloom
