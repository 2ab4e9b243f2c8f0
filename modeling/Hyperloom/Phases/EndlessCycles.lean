import Hyperloom.Phases.MacroCycles

/-!
# A gain that comes and goes

Where the range of the gain is wider than what a cycle must show, a gain that
goes up and down again never stays out of two cycles in a row, and a session
that is reopened at its foot starts climbing anew.  The macro-cycles of a
session without a time limit come to an end in the other case only.
-/

namespace Hyperloom
namespace Phases

open Library (Machine)

/-!
## Ticks
-/

structure MovesOn (s t : PhaseState) (target : Phase) : Prop where
  live : t.live = true
  phase : t.phase = some target
  stopReason : t.stopReason = s.stopReason
  hint : t.pendingEscalateHint = none
  gain : t.cumulativeGainValidated = s.cumulativeGainValidated

variable {s : PhaseState} {source : Phase} {inputs : PredicateInputs} {move : Transition}
  {live : Bool} {stopReason : String} {phase : Phase} {start gain : Rat}

theorem nextPhase_unheld (inputs : PredicateInputs) :
    nextPhase inputs false = replayNextPhase inputs := by
  unfold nextPhase
  cases replayNextPhase inputs with
  | none => rfl
  | some move => simp

theorem advance_commits (hlive : s.live = true)
    (hphase : s.phase = some source) (hinputs : inputs.currentPhase = source)
    (hsource : source ≠ .close) (htarget : move.target ≠ source)
    (hmove : replayNextPhase inputs = some move) :
    phaseMachine.step s (.advance inputs false true) =
      some (commitTransition s source inputs move) := by
  have hadvance : advancePhaseIfNeeded s source inputs false true =
      commitTransition s source inputs move := by
    unfold advancePhaseIfNeeded
    rw [if_neg (fun h => hsource h.2.1), nextPhase_unheld, hmove]
    exact if_pos ⟨htarget, rfl⟩
  show inPhase s inputs _ = _
  unfold inPhase
  rw [hphase]
  dsimp only
  rw [if_pos ⟨hlive, hinputs⟩, hadvance]

theorem commitTransition_of_open (htarget : move.target ≠ .close) :
    commitTransition s source inputs move =
      applyTransition { s with pendingEscalateHint := none } source inputs move := by
  exact if_neg htarget

theorem carryCycleFactsAcross_of_open (htarget : move.target ≠ .close) :
    carryCycleFactsAcross s move = s := by
  unfold carryCycleFactsAcross
  simp [htarget]

theorem advance_moves (hlive : s.live = true)
    (hphase : s.phase = some source) (hinputs : inputs.currentPhase = source)
    (hsource : source ≠ .close) (htarget : move.target ≠ source)
    (hmove : replayNextPhase inputs = some move)
    (hopen : move.target ≠ .close) (hloop : move.isLoopback = false) :
    exists t, phaseMachine.step s (.advance inputs false true) = some t ∧
      MovesOn s t move.target ∧ t.gainAtCycleStart = s.gainAtCycleStart ∧
      t.noGainCycleStreak = s.noGainCycleStreak := by
  refine ⟨_, advance_commits hlive hphase hinputs hsource htarget hmove, ?_⟩
  rw [commitTransition_of_open hopen]
  unfold applyTransition
  rw [carryCycleFactsAcross_of_open hopen, hloop]
  exact ⟨⟨hlive, rfl, rfl, rfl, rfl⟩, rfl, rfl⟩

theorem advance_reloops {evidence : Storage.Evidence} (hlive : s.live = true)
    (hphase : s.phase = some .sweep) (hinputs : inputs.currentPhase = .sweep)
    (hmove : replayNextPhase inputs = some ⟨.frameworkAgent, "cycle_reloop", evidence⟩) :
    exists t, phaseMachine.step s (.advance inputs false true) = some t ∧
      MovesOn s t .frameworkAgent ∧ t.gainAtCycleStart = s.cumulativeGainValidated ∧
      t.noGainCycleStreak = (Transition.effectiveStreak
          ⟨.frameworkAgent, "cycle_reloop", evidence⟩).getD 0 ∧
      Reloops s (.advance inputs false true) t := by
  have hdecided := replayNextPhase_decided hmove
  have hreloop : (PhaseRow.committed inputs.currentPhase inputs
      ⟨.frameworkAgent, "cycle_reloop", evidence⟩).isReloop = true := by
    rw [hinputs]
    rfl
  have hloop := (isReloop_eq_isLoopback hdecided).symm.trans hreloop
  have hopen : (Transition.mk .frameworkAgent "cycle_reloop" evidence).target ≠ .close := by
    intro hclose
    cases hclose
  refine ⟨_, advance_commits hlive hphase hinputs (by decide) ?_ hmove, ?_⟩
  · nofun
  · rw [commitTransition_of_open hopen]
    unfold applyTransition
    rw [carryCycleFactsAcross_of_open hopen, hloop]
    refine ⟨⟨hlive, rfl, rfl, rfl, rfl⟩, rfl, rfl, _, rfl, ?_⟩
    rw [← hinputs]
    exact hreloop

def tickInputs (s : PhaseState) (facts : PhaseFacts) : PredicateInputs where
  nowUnix := 0
  globals := { stopReason := s.stopReason }
  hint := s.pendingEscalateHint
  macroCycle := s.macroCycle
  runFlags := { kernelEnabled := false }
  facts := facts

/-- Where a session stands: its phase, the gain its cycle started from and the
gain validated last. -/
structure Placed (s : PhaseState) (live : Bool) (stopReason : String)
    (phase : Phase) (start gain : Rat) : Prop where
  live : s.live = live
  stopReason : s.stopReason = stopReason
  hint : s.pendingEscalateHint = none
  phase : s.phase = some phase
  start : s.gainAtCycleStart = start
  gain : s.cumulativeGainValidated = gain

theorem replay_tick {facts : PhaseFacts} (hstop : s.stopReason = "") :
    replayNextPhase (tickInputs s facts) = phaseTransition (tickInputs s facts) := by
  have hforced : terminalCloseTransition (tickInputs s facts) = none := by
    unfold terminalCloseTransition tickInputs
    simp [hstop]
  unfold replayNextPhase
  rw [hforced]
  exact if_neg (fun h => h.1 rfl)

theorem Placed.moves (facts : PhaseFacts) {reason : String}
    {evidence : Storage.Evidence} {target : Phase} (h : Placed s true "" facts.phase start gain)
    (hmove : phaseTransition (tickInputs s facts) = some ⟨target, reason, evidence⟩)
    (hsource : facts.phase ≠ .close ∧ facts.phase ≠ .sweep)
    (htarget : target ≠ facts.phase ∧ target ≠ .close) :
    exists t, phaseMachine.step s (.advance (tickInputs s facts) false true) = some t ∧
      Placed t true "" target start gain ∧ t.noGainCycleStreak = s.noGainCycleStreak := by
  rw [← replay_tick h.stopReason] at hmove
  have hloop := isReloop_eq_isLoopback (replayNextPhase_decided hmove)
  have hplain : (PhaseRow.committed facts.phase (tickInputs s facts)
      ⟨target, reason, evidence⟩).isReloop = false := by
    simp [PhaseRow.isReloop, hsource.2]
  rcases advance_moves h.live h.phase rfl hsource.1 htarget.1 hmove htarget.2
    (hloop.symm.trans hplain) with ⟨t, hstep, hmoves, hstart, hstreak⟩
  exact ⟨t, hstep, ⟨hmoves.live, hmoves.stopReason.trans h.stopReason, hmoves.hint,
    hmoves.phase, hstart.trans h.start, hmoves.gain.trans h.gain⟩, hstreak⟩

theorem Placed.stops (h : Placed s true "signal" .frameworkAgent start gain) :
    exists t, phaseMachine.step s (.advance
        (tickInputs s (.frameworkAgent {} spentBudget true)) false true) = some t ∧
      Placed t true "signal" .close start gain := by
  have hmove : exists evidence,
      replayNextPhase (tickInputs s (.frameworkAgent {} spentBudget true)) =
        some ⟨.close, "signal", evidence⟩ := by
    unfold tickInputs
    rw [h.stopReason]
    exact ⟨_, rfl⟩
  rcases hmove with ⟨evidence, hmove⟩
  have hdecided := replayNextPhase_decided hmove
  have hloop := not_isLoopback_of_close hdecided rfl
  have hreason : setTerminalStopReason { s with pendingEscalateHint := none }
      "signal" = some { s with pendingEscalateHint := none } := by
    apply if_pos
    rw [h.stopReason]
    decide
  refine ⟨_, advance_commits h.live h.phase rfl (by decide) (by intro h; cases h) hmove, ?_⟩
  unfold commitTransition
  rw [if_pos rfl, hreason]
  unfold applyTransition carryCycleFactsAcross
  rw [hloop]
  exact { h with hint := rfl, phase := rfl }

theorem Placed.reopens (h : Placed s false "" .close start gain) :
    exists t, phaseMachine.step s .legStart = some t ∧ Placed t true "" .prelude gain gain := by
  have hreopen : phaseMachine.step s .legStart = some (reopen { s with live := true }) := by
    show phaseStep s .legStart = _
    rw [phaseStep, h.live]
    rw [h.phase]
    rfl
  exact ⟨_, hreopen, rfl, h.stopReason, h.hint, rfl, h.gain, h.gain⟩

namespace CycleSettings

variable (settings : CycleSettings)

def sweepFacts (s : PhaseState) : PhaseFacts :=
  .sweep { status := "succeeded", reloop := settings.reloopFacts s [] 0 } spentBudget

variable {settings}

theorem replay_sweepFacts (hstop : s.stopReason = "")
    (hstreak : settings.streakAfter s < settings.noGainCycles) :
    exists evidence, replayNextPhase (tickInputs s (settings.sweepFacts s)) =
        some ⟨.frameworkAgent, "cycle_reloop", evidence⟩ := by
  have hblocked : reloopBlocked (settings.reloopFacts s [] 0)
      (tickInputs s (settings.sweepFacts s)).globals = none := by
    unfold reloopBlocked
    rw [settings.streak_reloopFacts]
    exact if_neg (Int.not_le.mpr hstreak)
  have hopens : (reloopDecision (settings.reloopFacts s [] 0)
      (tickInputs s (settings.sweepFacts s)).globals s.macroCycle).blocked = none := by
    unfold reloopDecision
    rw [hblocked]
    rfl
  have hexit : sweepExit { status := "succeeded", reloop := settings.reloopFacts s [] 0 }
      spentBudget = some ("sweep_done", [("sweep_status", .str "succeeded")]) := rfl
  have hphase : phaseTransition (tickInputs s (settings.sweepFacts s)) =
      sweepTransition { kernelEnabled := false }
        (tickInputs s (settings.sweepFacts s)).globals s.macroCycle
        { status := "succeeded", reloop := settings.reloopFacts s [] 0 } spentBudget := rfl
  rw [replay_tick hstop, hphase, sweepTransition, hexit]
  dsimp only
  rw [if_neg (by decide), if_pos ⟨hopens, rfl⟩]
  exact ⟨_, rfl⟩

theorem placed_reloops (h : Placed s true "" .sweep start gain)
    (hstreak : settings.streakAfter s < settings.noGainCycles) :
    exists t,
      phaseMachine.step s (.advance (tickInputs s (settings.sweepFacts s)) false true) = some t ∧
      Placed t true "" .frameworkAgent gain gain ∧ t.noGainCycleStreak = settings.streakAfter s ∧
      Reloops s (.advance (tickInputs s (settings.sweepFacts s)) false true) t := by
  rcases replay_sweepFacts h.stopReason hstreak with ⟨evidence, hmove⟩
  rcases advance_reloops h.live h.phase rfl hmove with
    ⟨t, hstep, hmoves, hstart, hcarried, hreloops⟩
  have hdecided := replayNextPhase_decided hmove
  refine ⟨t, hstep, ?_, ?_, hreloops⟩
  · exact ⟨hmoves.live, hmoves.stopReason.trans h.stopReason, hmoves.hint,
      hmoves.phase, hstart.trans h.gain, hmoves.gain.trans h.gain⟩
  · cases hdecided with
    | anchors htput _ _ => cases htput
    | reloops hfacts _ _ _ hlookup =>
      rw [hcarried, effectiveStreak_of_lookup hlookup]
      cases hfacts
      exact settings.streak_reloopFacts s [] 0

/-- The operation is admitted, and leads to such a state. -/
def Takes (settings : CycleSettings) (s : PhaseState) (a : PhaseOp)
    (reached : PhaseState -> Prop) : Prop :=
  settings.Admits s a ∧ exists t, phaseMachine.step s a = some t ∧ reached t

theorem Takes.imp {a : PhaseOp} {reached reached' : PhaseState -> Prop}
    (h : settings.Takes s a reached) (himp : forall t, reached t -> reached' t) :
    settings.Takes s a reached' := by
  rcases h with ⟨hadmits, t, hstep, hreached⟩
  exact ⟨hadmits, t, hstep, himp t hreached⟩

section

variable (hgain : gain = settings.lo ∨ gain = settings.hi)

include hgain

theorem gain_admitted (h : Placed s live stopReason phase start gain) :
    OnGrid s.cumulativeGainValidated ∧ settings.lo ≤ s.cumulativeGainValidated ∧
      s.cumulativeGainValidated ≤ settings.hi := by
  rw [h.gain]
  rcases hgain with rfl | rfl
  · exact ⟨settings.lo_onGrid, le_refl _, settings.lo_le_hi⟩
  · exact ⟨settings.hi_onGrid, settings.lo_le_hi, le_refl _⟩

theorem admits_of_placed {a : PhaseOp} (h : Placed s live stopReason phase start gain)
    (hinputs : a.inputs = none ∨
      exists facts, a.inputs = some (tickInputs s facts) ∧
        (facts = settings.sweepFacts s ∨ facts.phase ≠ .sweep)) : settings.Admits s a := by
  refine ⟨gain_admitted hgain h, ?_⟩
  intro inputs hop
  rcases hinputs with hnone | ⟨facts, hsome, hfacts⟩
  · cases hnone.symm.trans hop
  · cases hsome.symm.trans hop
    refine ⟨rfl, rfl, rfl, ?_⟩
    intro result budget hsweep
    rcases hfacts with hfacts | hfacts
    · cases hfacts.symm.trans hsweep
      exact ⟨[], 0, rfl⟩
    · have hphase : facts.phase = .sweep := congrArg PhaseFacts.phase hsweep
      exact absurd hphase hfacts

theorem takes_outside (h : Placed s live stopReason phase start gain) (gain' : Rat)
    (stop' : String) :
    settings.Takes s (.outside gain' stop' none) fun t =>
      Placed t live stop' phase start gain' ∧ t.noGainCycleStreak = s.noGainCycleStreak :=
  ⟨admits_of_placed hgain h (Or.inl rfl), _, rfl, ⟨h.live, rfl, rfl, h.phase, h.start, rfl⟩, rfl⟩

theorem takes_handOver (h : Placed s true "" .frameworkAgent start gain) :
    settings.Takes s
      (.advance (tickInputs s (.frameworkAgent {} spentBudget true)) false true) fun t =>
      Placed t true "" .sweep start gain ∧ t.noGainCycleStreak = s.noGainCycleStreak :=
  ⟨admits_of_placed hgain h (Or.inr ⟨_, rfl, Or.inr (by decide)⟩),
    Placed.moves _ h rfl (by decide) (by decide)⟩

theorem takes_reloop (h : Placed s true "" .sweep start gain)
    (hstreak : settings.streakAfter s < settings.noGainCycles) :
    settings.Takes s (.advance (tickInputs s (settings.sweepFacts s)) false true) fun t =>
      Placed t true "" .frameworkAgent gain gain ∧
        t.noGainCycleStreak = settings.streakAfter s := by
  rcases placed_reloops h hstreak with ⟨t, hstep, hplaced, hcarried, _⟩
  exact ⟨admits_of_placed hgain h (Or.inr ⟨_, rfl, Or.inl rfl⟩), t, hstep, hplaced, hcarried⟩

end

theorem streakAfter_of_lowered (h : Placed s true "" .sweep settings.hi settings.lo)
    (hstreak : s.noGainCycleStreak = 0) : settings.streakAfter s = 1 := by
  unfold streakAfter
  rw [h.gain, h.start, hstreak]
  apply if_neg
  have hrange := settings.lo_le_hi
  have hnonneg := settings.minGainPct_nonneg
  linarith

variable (hwide : settings.minGainPct < settings.hi - settings.lo)

include hwide

theorem streakAfter_of_raised (h : Placed s true "" .sweep settings.lo settings.hi) :
    settings.streakAfter s = 0 := by
  unfold streakAfter
  rw [h.gain, h.start]
  exact if_pos hwide

theorem streakAfter_raised_lt (h : Placed s true "" .sweep settings.lo settings.hi) :
    settings.streakAfter s < settings.noGainCycles := by
  rw [streakAfter_of_raised hwide h]
  exact settings.noGainCycles_pos

/-!
## A swing in one leg
-/

/-- The gain goes up in one cycle and down in the next. -/
inductive Swing where
  | raise
  | raised
  | reloopUp
  | lower
  | lowered
  | reloopDown
deriving DecidableEq

namespace Swing

def next : Swing -> Swing
  | raise => raised
  | raised => reloopUp
  | reloopUp => lower
  | lower => lowered
  | lowered => reloopDown
  | reloopDown => raise

section

variable (settings : CycleSettings) (swing : Swing) (s : PhaseState)

def At : Prop :=
  match swing with
  | raise => Placed s true "" .frameworkAgent settings.lo settings.lo
  | raised => Placed s true "" .frameworkAgent settings.lo settings.hi
  | reloopUp => Placed s true "" .sweep settings.lo settings.hi
  | lower =>
    Placed s true "" .frameworkAgent settings.hi settings.hi ∧ s.noGainCycleStreak = 0
  | lowered =>
    Placed s true "" .frameworkAgent settings.hi settings.lo ∧ s.noGainCycleStreak = 0
  | reloopDown =>
    Placed s true "" .sweep settings.hi settings.lo ∧ s.noGainCycleStreak = 0

def drive : PhaseOp :=
  let handOver : PhaseOp := .advance (tickInputs s (.frameworkAgent {} spentBudget true)) false true
  let sweep : PhaseOp := .advance (tickInputs s (settings.sweepFacts s)) false true
  match swing with
  | raise => .outside settings.hi "" none
  | raised => handOver
  | reloopUp => sweep
  | lower => .outside settings.lo "" none
  | lowered => handOver
  | reloopDown => sweep

omit hwide in
theorem drive_ne_legStart : drive settings swing s ≠ .legStart := by
  intro hstart
  cases swing with
  | _ => cases hstart

end

theorem step (hmany : 1 < settings.noGainCycles) (swing : Swing) (s : PhaseState)
    (hat : At settings swing s) :
    settings.Admits s (drive settings swing s) ∧
      exists t, phaseMachine.step s (drive settings swing s) = some t ∧
        At settings swing.next t := by
  cases swing with
  | raise => exact (takes_outside (Or.inl rfl) hat _ _).imp fun _ h => h.1
  | raised => exact (takes_handOver (Or.inr rfl) hat).imp fun _ h => h.1
  | reloopUp =>
    have hreloops := takes_reloop (Or.inr rfl) hat (streakAfter_raised_lt hwide hat)
    rw [streakAfter_of_raised hwide hat] at hreloops
    exact hreloops
  | lower =>
    exact (takes_outside (Or.inr rfl) hat.1 _ _).imp fun _ h => ⟨h.1, h.2.trans hat.2⟩
  | lowered =>
    exact (takes_handOver (Or.inl rfl) hat.1).imp fun _ h => ⟨h.1, h.2.trans hat.2⟩
  | reloopDown =>
    have hstreak : settings.streakAfter s < settings.noGainCycles := by
      rw [streakAfter_of_lowered hat.1 hat.2]
      exact hmany
    exact (takes_reloop (Or.inl rfl) hat.1 hstreak).imp fun _ h => h.1

omit hwide in
theorem returns (swing : Swing) : exists j, next^[j] swing = .reloopUp := by
  cases swing with
  | raise => exact ⟨2, rfl⟩
  | raised => exact ⟨1, rfl⟩
  | reloopUp => exact ⟨0, rfl⟩
  | lower => exact ⟨5, rfl⟩
  | lowered => exact ⟨4, rfl⟩
  | reloopDown => exact ⟨3, rfl⟩

end Swing

def sessionAtFoot (settings : CycleSettings) : PhaseState where
  live := true
  phase := some .frameworkAgent
  macroCycle := 0
  noGainCycleStreak := 0
  gainAtCycleStart := settings.lo
  cumulativeGainValidated := settings.lo
  stopReason := ""
  pendingEscalateHint := none
  closeSequenceDone := false
  phaseHistory := []

theorem reloops_when_raised {t : PhaseState} (h : Placed s true "" .sweep settings.lo settings.hi)
    (hstep : phaseMachine.step s (.advance
      (tickInputs s (settings.sweepFacts s)) false true) = some t) :
    Reloops s (.advance (tickInputs s (settings.sweepFacts s)) false true) t := by
  rcases placed_reloops h (streakAfter_raised_lt hwide h) with ⟨u, hstep', _, _, hreloops⟩
  cases hstep.symm.trans hstep'
  exact hreloops

theorem exists_reloops_infinite_in_leg (hmany : 1 < settings.noGainCycles) :
    exists e : Machine.Execution phaseMachine settings.Admits,
      (e.visits Reloops).Infinite ∧ forall n, e.labels n ≠ .legStart := by
  have hstart : Swing.At settings .raise (sessionAtFoot settings) := ⟨rfl, rfl, rfl, rfl, rfl, rfl⟩
  rcases Machine.Execution.exists_visits_infinite Swing.next (Swing.step hwide hmany) .reloopUp
    (fun s t hat hstep => reloops_when_raised hwide hat hstep)
    Swing.returns hstart with ⟨e, hinfinite, hdriven⟩
  refine ⟨e, hinfinite, ?_⟩
  intro n
  rcases hdriven n with ⟨swing, _, hlabel⟩
  rw [hlabel]
  exact Swing.drive_ne_legStart settings swing (e.states n)

/-!
## A swing over the legs of a session
-/

/-- The gain goes up in a leg and is lost when the next one reopens it. -/
inductive Reopening where
  | reloopUp
  | stop
  | stopped
  | closed
  | ended
  | cleared
  | reopened
  | raise
  | raised
deriving DecidableEq

namespace Reopening

def next : Reopening -> Reopening
  | reloopUp => stop
  | stop => stopped
  | stopped => closed
  | closed => ended
  | ended => cleared
  | cleared => reopened
  | reopened => raise
  | raise => raised
  | raised => reloopUp

def At (settings : CycleSettings) (station : Reopening) (s : PhaseState) : Prop :=
  match station with
  | reloopUp => Placed s true "" .sweep settings.lo settings.hi
  | stop => Placed s true "" .frameworkAgent settings.hi settings.hi
  | stopped => Placed s true "signal" .frameworkAgent settings.hi settings.lo
  | closed => Placed s true "signal" .close settings.hi settings.lo
  | ended => Placed s false "signal" .close settings.hi settings.lo
  | cleared => Placed s false "" .close settings.hi settings.lo
  | reopened => Placed s true "" .prelude settings.lo settings.lo
  | raise => Placed s true "" .frameworkAgent settings.lo settings.lo
  | raised => Placed s true "" .frameworkAgent settings.lo settings.hi

def drive (settings : CycleSettings) (station : Reopening) (s : PhaseState) : PhaseOp :=
  let spent : PhaseOp := .advance (tickInputs s (.frameworkAgent {} spentBudget true)) false true
  match station with
  | reloopUp => .advance (tickInputs s (settings.sweepFacts s)) false true
  | stop => .outside settings.lo "signal" none
  | stopped => spent
  | closed => .legEnd
  | ended => .outside settings.lo "" none
  | cleared => .legStart
  | reopened => .advance (tickInputs s (.prelude { tput := 1 } false)) false true
  | raise => .outside settings.hi "" none
  | raised => spent

variable (station : Reopening)

theorem step (s : PhaseState) (hat : At settings station s) :
    settings.Admits s (drive settings station s) ∧
      exists t, phaseMachine.step s (drive settings station s) = some t ∧
        At settings station.next t := by
  cases station with
  | reloopUp =>
    exact (takes_reloop (Or.inr rfl) hat (streakAfter_raised_lt hwide hat)).imp fun _ h => h.1
  | stop => exact (takes_outside (Or.inr rfl) hat _ _).imp fun _ h => h.1
  | stopped =>
    exact ⟨admits_of_placed (Or.inl rfl) hat (Or.inr ⟨_, rfl, Or.inr (by decide)⟩),
      Placed.stops hat⟩
  | closed =>
    exact ⟨admits_of_placed (Or.inl rfl) hat (Or.inl rfl), { s with live := false },
      if_pos hat.live, rfl, hat.stopReason, hat.hint, hat.phase, hat.start, hat.gain⟩
  | ended => exact (takes_outside (Or.inl rfl) hat _ _).imp fun _ h => h.1
  | cleared =>
    exact ⟨admits_of_placed (Or.inl rfl) hat (Or.inl rfl), Placed.reopens hat⟩
  | reopened =>
    rcases Placed.moves (.prelude { tput := 1 } false) hat rfl (by decide)
      ⟨nofun, nofun⟩ with ⟨t, hstep, hplaced, _⟩
    exact ⟨admits_of_placed (Or.inl rfl) hat (Or.inr ⟨_, rfl, Or.inr (by decide)⟩),
      t, hstep, hplaced⟩
  | raise => exact (takes_outside (Or.inl rfl) hat _ _).imp fun _ h => h.1
  | raised => exact (takes_handOver (Or.inr rfl) hat).imp fun _ h => h.1

omit hwide in
theorem returns : exists j, next^[j] station = .reloopUp := by
  cases station with
  | reloopUp => exact ⟨0, rfl⟩
  | stop => exact ⟨8, rfl⟩
  | stopped => exact ⟨7, rfl⟩
  | closed => exact ⟨6, rfl⟩
  | ended => exact ⟨5, rfl⟩
  | cleared => exact ⟨4, rfl⟩
  | reopened => exact ⟨3, rfl⟩
  | raise => exact ⟨2, rfl⟩
  | raised => exact ⟨1, rfl⟩

end Reopening

theorem exists_reloops_infinite :
    exists e : Machine.Execution phaseMachine settings.Admits, (e.visits Reloops).Infinite := by
  have hstart : Reopening.At settings .raise (sessionAtFoot settings) :=
    ⟨rfl, rfl, rfl, rfl, rfl, rfl⟩
  rcases Machine.Execution.exists_visits_infinite Reopening.next
    (Reopening.step hwide) .reloopUp (fun s t hat hstep => reloops_when_raised hwide hat hstep)
    Reopening.returns hstart with ⟨e, hinfinite, _⟩
  exact ⟨e, hinfinite⟩

end CycleSettings

/-!
## When the macro-cycles come to an end
-/

/-- Without a time limit, a session of finitely many legs reloops finitely
often for every evolution of the gain in the range exactly if one cycle without
a gain ends it or the range is no wider than the gain a cycle must show; over
any number of legs the latter alone decides. -/
theorem macro_cycles_end_iff (settings : CycleSettings) :
    ((forall e : Machine.Execution phaseMachine settings.Admits,
        (e.visits StartsLeg).Finite -> (e.visits Reloops).Finite) <->
      settings.noGainCycles = 1 ∨ settings.hi - settings.lo ≤ settings.minGainPct) ∧
    ((forall e : Machine.Execution phaseMachine settings.Admits, (e.visits Reloops).Finite) <->
      settings.hi - settings.lo ≤ settings.minGainPct) := by
  constructor
  · constructor
    · intro hfinite
      rcases lt_or_ge settings.minGainPct (settings.hi - settings.lo) with hwide | hnarrow
      · rcases Int.lt_or_eq_of_le settings.noGainCycles_pos with hmany | hone
        · rcases CycleSettings.exists_reloops_infinite_in_leg hwide hmany with ⟨e, hinfinite, hlegs⟩
          have hnone : e.visits StartsLeg = ∅ := Set.eq_empty_of_forall_notMem hlegs
          apply absurd (hfinite e _) hinfinite
          rw [hnone]
          exact Set.finite_empty
        · exact Or.inl hone.symm
      · exact Or.inr hnarrow
    · intro hcondition e hlegs
      rcases hcondition with hone | hnarrow
      · exact CycleSettings.reloops_finite_of_one hone e hlegs
      · exact CycleSettings.reloops_finite_of_narrow hnarrow e
  · constructor
    · intro hfinite
      rcases lt_or_ge settings.minGainPct (settings.hi - settings.lo) with hwide | hnarrow
      · rcases CycleSettings.exists_reloops_infinite hwide with ⟨e, hinfinite⟩
        exact absurd (hfinite e) hinfinite
      · exact hnarrow
    · intro hnarrow e
      exact CycleSettings.reloops_finite_of_narrow hnarrow e

/-- Three cycles may pass without a gain of one percent, and the gain swings
between nothing and five percent. -/
def swingingGain : CycleSettings where
  minGainPct := 1
  noGainCycles := 3
  lo := 0
  hi := 5
  minGainPct_nonneg := by decide
  noGainCycles_pos := by decide
  lo_le_hi := by decide
  lo_onGrid := ⟨0, by rw [zero_mul, Int.cast_zero]⟩
  hi_onGrid := ⟨5 * 2 ^ 1074, by
    rw [gridScale, Int.cast_mul, Int.cast_pow, Int.cast_ofNat, Int.cast_ofNat]⟩

/-- One leg of a session without a time limit reloops forever. -/
theorem macro_cycles_without_end :
    exists e : Machine.Execution phaseMachine swingingGain.Admits,
      (e.visits Reloops).Infinite ∧ forall n, e.labels n ≠ .legStart :=
  CycleSettings.exists_reloops_infinite_in_leg (by decide +kernel) (by decide)

end Phases
end Hyperloom
